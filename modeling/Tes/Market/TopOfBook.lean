import Tes.Engine.Breaches
import Tes.Ledger.Funding
import Tes.Ledger.Isolation

/-! The top-of-book stream: who overwrites a quote with each event of a symbol has its best
displayed prices, unless a fill outside the price band has moved them. -/
namespace Tes
open OrderBook MatchingEngine EStateM

abbrev Quote := Option ℤ × Option ℤ

def OrderBook.quote (book : OrderBook) : Quote := (book.bestBid, book.bestAsk)

def MatchingEngine.quote (s : MatchingEngine) (symbol : Symbol) : Quote := (s.bookFor symbol).quote

/-- The quote of a symbol that a consumer has after one more event. -/
def requote (symbol : Symbol) (quote : Quote) : Event → Quote
  | .topOfBook bid ask other => if other = symbol then (bid, ask) else quote
  | _ => quote

/-- And after some more. -/
def quoteAfter (symbol : Symbol) (quote : Quote) (events : List Event) : Quote :=
  events.foldl (requote symbol) quote

def Event.isQuote : Event → Bool
  | .topOfBook .. => true
  | _ => false

section Stream
variable {symbol : Symbol} {quote : Quote} {events more : List Event}

theorem quoteAfter_append (symbol : Symbol) (quote : Quote) (events more : List Event) :
    quoteAfter symbol quote (events ++ more) =
      quoteAfter symbol (quoteAfter symbol quote events) more := List.foldl_append

theorem quoteAfter_of_not (h : ∀ e ∈ events, e.isQuote = false) :
    quoteAfter symbol quote events = quote := by
  unfold quoteAfter
  induction events with
  | nil => rfl
  | cons event rest ih =>
    have hevent : requote symbol quote event = quote := by
      have hnot := h event List.mem_cons_self
      cases event <;> first | rfl | cases hnot
    rw [List.foldl_cons, hevent]
    exact ih fun e he => h e (List.mem_cons_of_mem _ he)

theorem quoteAfter_of_other {other : Symbol} (hne : symbol ≠ other)
    (h : ∀ e ∈ events, e.symbol = other) : quoteAfter symbol quote events = quote := by
  unfold quoteAfter
  induction events with
  | nil => rfl
  | cons event rest ih =>
    have hevent : requote symbol quote event = quote := by
      have hsymbol := h event List.mem_cons_self
      cases event with
      | topOfBook bid ask other' => exact if_neg fun heq => hne (heq.symm.trans hsymbol)
      | _ => rfl
    rw [List.foldl_cons, hevent]
    exact ih fun e he => h e (List.mem_cons_of_mem _ he)

/-- The event that compares a book with the quote before it gives the quote of the book. -/
theorem quoteAfter_topOfBook (book : OrderBook) (symbol : Symbol) (quote : Quote) :
    quoteAfter symbol quote (book.maybeEmitTopOfBookChange symbol quote.1 quote.2) = book.quote := by
  unfold OrderBook.maybeEmitTopOfBookChange
  split_ifs with hchange
  · exact if_pos rfl
  · push Not at hchange
    exact Prod.ext hchange.1 hchange.2

theorem topOfBook_tagAccepted (book : OrderBook) (symbol : Symbol) (bid ask : Option ℤ) :
    (book.maybeEmitTopOfBookChange defaultSymbol bid ask).map (Event.tagAccepted symbol) =
      book.maybeEmitTopOfBookChange symbol bid ask := by
  unfold OrderBook.maybeEmitTopOfBookChange
  split_ifs <;> rfl

theorem topOfBook_tagCanceled (book : OrderBook) (symbol : Symbol) (bid ask : Option ℤ) :
    (book.maybeEmitTopOfBookChange defaultSymbol bid ask).map (Event.tagCanceled symbol) =
      book.maybeEmitTopOfBookChange symbol bid ask := by
  unfold OrderBook.maybeEmitTopOfBookChange
  split_ifs <;> rfl

end Stream

/-- The order's first fill is outside the price band and moves the best displayed prices. -/
def Taker.Misquotes (t : Taker) (s : MatchingEngine) : Prop :=
  ¬ s.inAuction t.symbol ∧ ∃ next ∈ s.nextFill t, ¬ s.priceInBand t.symbol next.1.price ∧
    next.2.quote ≠ s.quote t.symbol

instance (t : Taker) (s : MatchingEngine) : Decidable (t.Misquotes s) :=
  inferInstanceAs (Decidable (_ ∧ _))

section Steps
variable {G : Guard} {symbol : Symbol} {s s' : MatchingEngine} {events : List Event}
  {entries : List Entry}

theorem not_quote_fillEvents {t : Taker} {fill : FillResult} :
    ∀ e ∈ fillEvents t fill, e.isQuote = false := by
  intro e he
  unfold fillEvents at he
  rcases List.mem_append.mp he with he | he
  · split at he
    · rw [List.mem_singleton.mp he]
      rfl
    · cases he
  · split_ifs at he <;> rw [List.mem_singleton.mp he] <;> rfl

theorem Fillings.quotes {t t' : Taker} (h : Fillings s t events s' t') :
    quoteAfter t.symbol (s.quote t.symbol) events = s'.quote t.symbol := by
  induction h with
  | done => rfl
  | @fill s s' t t' fill book events hnext hband hhold _ ih =>
    have hbook : (s.filled t fill book).quote t.symbol = book.quote := by
      unfold MatchingEngine.quote
      rw [bookFor_filled, if_pos rfl]
    have hsilent : quoteAfter t.symbol (s.quote t.symbol) (tradeEvent t fill :: fillEvents t fill) =
        s.quote t.symbol := quoteAfter_of_not fun e he => by
      rcases List.mem_cons.mp he with rfl | he
      · rfl
      · exact not_quote_fillEvents e he
    have hfirst : quoteAfter t.symbol (s.quote t.symbol) (tradeEvent t fill :: s.fillReport t fill book) =
        book.quote := by
      have hsplit : tradeEvent t fill :: s.fillReport t fill book =
          (tradeEvent t fill :: fillEvents t fill) ++ book.maybeEmitTopOfBookChange t.symbol
            (s.quote t.symbol).1 (s.quote t.symbol).2 := rfl
      rw [hsplit, quoteAfter_append, hsilent]
      exact quoteAfter_topOfBook book t.symbol _
    rw [quoteAfter_append, hfirst, ← hbook]
    exact ih

theorem quotes_rested {t : Taker} :
    quoteAfter t.symbol (s.quote t.symbol) (t.restedEvents s) = (t.rested s).quote t.symbol := by
  have hadd : ∀ (book : OrderBook) (order : Order) (visibility : OrderVisibility),
      quoteAfter t.symbol book.quote ((book.addOrder order visibility).1.map
        (Event.tagAccepted t.symbol)) = (book.addOrder order visibility).2.quote := by
    intro book order visibility
    unfold OrderBook.addOrder
    split_ifs
    · rfl
    · have haccepted : ∀ e, e = (acceptedEvent (arrange order visibility)).tagAccepted t.symbol →
          requote t.symbol book.quote e = book.quote := by
        rintro e rfl
        unfold acceptedEvent
        cases (arrange order visibility).visibility <;> rfl
      have htop := quoteAfter_topOfBook (book.insertOrder (arrange order visibility)) t.symbol
        book.quote
      unfold quoteAfter at htop ⊢
      dsimp only
      rw [List.map_cons, List.foldl_cons, haccepted _ rfl, topOfBook_tagAccepted]
      exact htop
  unfold MatchingEngine.quote
  rw [bookFor_rested, if_pos rfl]
  unfold Taker.restedEvents restEvents addRemainder bookAdd
  cases t.visibility <;> exact hadd _ _ _

theorem Finishes.quotes {t : Taker} (h : Finishes s t events s') :
    quoteAfter t.symbol (s.quote t.symbol) events = s'.quote t.symbol := by
  cases h with
  | rest => exact quotes_rested
  | expire => rfl
  | done => rfl

theorem Matches.quotes {t t' : Taker} (h : Matches s t events s' t') (hs : s.Sound G)
    (hadmits : s.Admits t) (hphase : ¬ s.inAuction t.symbol) (hquotes : ¬ t.Misquotes s) :
    quoteAfter t.symbol (s.quote t.symbol) events = s'.quote t.symbol := by
  rcases hadmits.matches (hs.book _) hphase h with
    ⟨-, hfillings⟩ | ⟨-, fill, book, hnext, hband, rfl, rfl, rfl⟩
  · exact hfillings.quotes
  · have hsame : book.quote = s.quote t.symbol := not_not.mp fun hne =>
      hquotes ⟨hphase, (fill, book), hnext, hband, hne⟩
    unfold MatchingEngine.quote at hsame ⊢
    rw [bookFor_breached, if_pos rfl]
    have hsilent : quoteAfter t.symbol (s.bookFor t.symbol).quote (tradeEvent t fill ::
        circuitBreakerEvents t.symbol fill.price "TradePriceBandBreach") =
        (s.bookFor t.symbol).quote := quoteAfter_of_not (by
      simp [tradeEvent, circuitBreakerEvents, Event.isQuote])
    exact hsilent.trans hsame.symm

theorem Crosses.not_quote {price qty remaining : ℤ} {steps : List (OrderBook × ℤ)}
    (h : Crosses symbol price s qty events steps s' remaining) :
    ∀ e ∈ events, e.isQuote = false := by
  induction h with
  | refl => simp
  | trade _ _ _ _ ih =>
    intro e he
    rcases List.mem_append.mp he with he | he
    · have hall : ∀ bidId askId price qty, ∀ e ∈ auctionTradeEvents symbol bidId askId price qty,
          e.isQuote = false := by simp [auctionTradeEvents, Event.isQuote]
      exact hall _ _ _ _ e he
    · exact ih e he

theorem Placing.quotes (h : Placing G symbol s events entries s') (hs : s.Sound G)
    (hquotes : ∀ e ∈ entries, ¬ e.2.Misquotes e.1) :
    quoteAfter symbol (s.quote symbol) events = s'.quote symbol := by
  cases h with
  | touch => rfl
  | report hverdict =>
    refine quoteAfter_of_not fun e he => ?_
    rw [List.mem_singleton.mp he]
    rename_i event hsymbol
    cases event <;> first | rfl | exact hverdict.elim
  | audit => rfl
  | restAuction hsymbol =>
    subst hsymbol
    exact quotes_rested
  | enter hsymbol hadmits haccount hphase hfok hmatches hfinishes =>
    subst hsymbol
    have hmatched := hmatches.quotes hs hadmits hphase (hquotes _ List.mem_cons_self)
    rw [quoteAfter_append, hmatched]
    have hfinished := hfinishes.quotes
    rwa [hmatches.symbol_eq] at hfinished

theorem quotes_cancel (book : OrderBook) (id : OrderId) :
    quoteAfter symbol book.quote ((book.cancel id).1.map (Event.tagCanceled symbol)) =
      (book.cancel id).2.quote := by
  unfold OrderBook.cancel
  split
  · rfl
  · rename_i entry hentry
    have htop := quoteAfter_topOfBook ({ book.eraseByIndex id entry with
      orderIndex := (book.eraseByIndex id entry).orderIndex.erase id }) symbol book.quote
    unfold quoteAfter at htop ⊢
    dsimp only at htop ⊢
    rw [List.map_cons, List.foldl_cons, topOfBook_tagCanceled]
    exact htop

/-- The events of a step take the quote of its symbol from before the step to after it. -/
theorem Step.quotes (h : Step G symbol s events entries s') (hs : s.Sound G)
    (hquotes : ∀ e ∈ entries, ¬ e.2.Misquotes e.1) :
    quoteAfter symbol (s.quote symbol) events = s'.quote symbol := by
  cases h with
  | placing h => exact h.quotes hs hquotes
  | track =>
    unfold MatchingEngine.quote
    rw [bookFor_of_frame (frame_of_unjournaled (unjournaled_trackEvents _ _))]
    rfl
  | @cancel id owner howner hsymbol hrests =>
    have hbook : (s.cancelResting owner.accountId symbol id).bookFor symbol =
        ((s.bookFor symbol).cancel id).2 := by
      rw [bookFor_cancelResting, if_pos rfl]
    unfold MatchingEngine.quote
    rw [hbook]
    exact quotes_cancel _ _
  | @cross s' price qty remaining qty' imbalance trades steps hauction hcrosses =>
    have hsilent : quoteAfter symbol (s.quote symbol) (.auctionUncross symbol price qty' imbalance ::
        trades) = s.quote symbol := quoteAfter_of_not fun e he => by
      rcases List.mem_cons.mp he with rfl | he
      · rfl
      · exact hcrosses.not_quote e he
    rw [quoteAfter_append, hsilent]
    exact quoteAfter_topOfBook _ symbol _
  | _ => rfl

theorem Steps.quotes (h : Steps (Step G symbol) s events entries s') (hs : s.Sound G)
    (hquotes : ∀ e ∈ entries, ¬ e.2.Misquotes e.1) :
    quoteAfter symbol (s.quote symbol) events = s'.quote symbol := by
  induction h with
  | refl => rfl
  | step hr _ ih =>
    rw [quoteAfter_append, hr.quotes hs fun e he => hquotes e (List.mem_append_left _ he)]
    exact ih (hr.sound hs) fun e he => hquotes e (List.mem_append_right _ he)

end Steps

/-- The orders that the operation lets in are solvent, and no fill of theirs outside the price
band moves the best displayed prices. -/
def Op.Quoting (op : Op) (s : MatchingEngine) : Prop :=
  ∀ e ∈ op.entries s, e.2.Solvent e.1 ∧ ¬ e.2.Misquotes e.1

instance (op : Op) (s : MatchingEngine) : Decidable (op.Quoting s) :=
  inferInstanceAs (Decidable (∀ e ∈ op.entries s, _ ∧ _))

/-- The events of an operation take every quote from before it to after it. -/
theorem Op.exec_quotes {s : MatchingEngine} (h : Reachable s) {op : Op}
    (hquotes : ∀ e ∈ op.entries s, ¬ e.2.Misquotes e.1) :
    Outcome op.exec s (fun events s' => ∀ symbol,
      quoteAfter symbol (s.quote symbol) events = s'.quote symbol) fun _ _ => True := by
  have hs := h.sound
  have hisolates := Op.exec_isolates h op
  unfold Outcome
  cases hexec : op.exec s with
  | error e s' => trivial
  | ok events s' =>
    obtain ⟨htagged, hothers⟩ := hisolates.returns hexec
    intro symbol
    by_cases hsymbol : symbol = op.symbol s
    · subst hsymbol
      by_cases hsetting : op.isSetting
      · have hquiet := (Op.exec_setting hsetting s).returns hexec
        have hcontrols := (Op.exec_controls hsetting s).returns hexec
        unfold MatchingEngine.quote
        rw [bookFor_of_unset hquiet.1]
        refine quoteAfter_of_not fun e he => ?_
        have hcontrol := (hcontrols e he).1
        cases e <;> first | rfl | exact hcontrol.elim
      · by_cases hstate : ∃ a symbol cash qty, op = .setAccountState a symbol cash qty
        · obtain ⟨a, other, cash, qty, rfl⟩ := hstate
          cases hexec
          rfl
        · push Not at hstate
          exact ((Op.exec_steps hs (fun _ _ => trivial) (fun _ _ _ => trivial) (fun _ _ => trivial)
            hsetting hstate).returns hexec).quotes hs hquotes
    · rw [quoteAfter_of_other hsymbol htagged]
      unfold MatchingEngine.quote
      rw [(hothers symbol hsymbol).book]

/-- In every run of such operations the stream of each symbol gives its best prices. -/
theorem Run.quotes_run {ops : List (Op × List Event)} {s : MatchingEngine}
    (h : Run (fun _ s op => op.Quoting s) fresh ops s) (symbol : Symbol) :
    quoteAfter symbol (none, none) (ops.flatMap Prod.snd) = s.quote symbol := by
  induction h with
  | nil => rfl
  | @returns s s' ops op events hrun hop hexec ih =>
    have hreach : Reachable s := ⟨_, hrun.mono fun _ => trivial⟩
    have hstep := (Op.exec_quotes hreach fun e he => (hop e he).2).returns hexec symbol
    rw [List.flatMap_append, quoteAfter_append, ih]
    simpa using hstep
  | @throws s s' ops op e hrun hop hexec ih =>
    have hsolvent : Run (fun _ s op => op.Solvent s) fresh ops s :=
      hrun.mono fun hop e he => (hop e he).1
    have hsame := (hsolvent.returns_or_same fun e he => (hop e he).1).throws hexec
    rw [hsame, List.flatMap_append, quoteAfter_append, ih]
    rfl

/-- A bid takes part of the only ask, inside the band. -/
def askInsideBand : List Op :=
  [.setAccountState 1 "X" 0 10, .setAccountState 2 "X" 5000 0, .setPriceBands "X" 90 200,
    .placeLimitOrder 1 "X" .ask 100 8 .gtc, .placeLimitOrder 2 "X" .bid 120 8 .gtc]

theorem quotes_askInsideBand :
    quoteAfter "X" (none, none) ((fresh.history askInsideBand).flatMap Prod.snd) =
      (fresh.applyAll askInsideBand).quote "X" :=
  Run.quotes_run (Run.ofOps (P := fun s op => op.Quoting s) askInsideBand (by decide +kernel)) "X"

/-- A bid takes the only ask, outside the band. -/
def askOutsideBand : List Op :=
  [.setAccountState 1 "X" 0 10, .setAccountState 2 "X" 5000 0,
    .placeLimitOrder 1 "X" .ask 100 8 .gtc, .setPriceBands "X" 110 200,
    .placeLimitOrder 2 "X" .bid 120 8 .gtc]

/-- The stream still has the ask that is gone. -/
theorem not_quotes_askOutsideBand : Reachable (fresh.applyAll askOutsideBand) ∧
    quoteAfter "X" (none, none) ((fresh.history askOutsideBand).flatMap Prod.snd) = (none, some 100) ∧
    (fresh.applyAll askOutsideBand).quote "X" = (none, none) := by
  refine ⟨reachable_applyAll _, ?_, ?_⟩
  · decide +kernel
  · decide +kernel

end Tes
