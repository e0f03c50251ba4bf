import Tes.Engine.Matching
import Tes.Engine.Entries

/-! The steps of an operation on one symbol, in the words of the code, with the events they
return and the order entries they make. -/
namespace Tes
open OrderBook MatchingEngine

/-- The symbol an event names. -/
def Event.symbol : Event → Symbol
  | .orderAccepted _ _ _ _ symbol | .hiddenOrderAccepted _ _ _ _ symbol
  | .icebergOrderAccepted _ _ _ _ _ _ _ symbol | .orderRejected _ _ _ _ symbol
  | .orderCanceled _ symbol | .cancelRejected _ _ symbol | .tradeExecuted _ _ _ _ _ symbol
  | .orderPartiallyFilled _ _ _ symbol | .orderFilled _ _ symbol | .orderExpired _ symbol
  | .stopOrderAccepted _ _ _ _ _ symbol | .stopOrderTriggered _ _ _ _ _ _ symbol
  | .topOfBook _ _ symbol | .symbolHalted symbol _ | .symbolResumed symbol
  | .priceBandUpdated symbol _ _ | .circuitBreakerTriggered symbol _ _ | .auctionStarted symbol _
  | .auctionEnded symbol _ | .auctionUncross symbol _ _ _ | .indicativePriceUpdated symbol _ _ _ =>
    symbol
  | .icebergReplenished clip => clip.symbol

/-- Events that only tell the caller how an entry or an auction stands. -/
def Event.verdict : Event → Prop
  | .orderRejected .. | .cancelRejected .. | .orderExpired .. | .auctionUncross ..
  | .indicativePriceUpdated .. => True
  | _ => False

theorem Event.verdict.inert {e : Event} (h : e.verdict) : e.inert := by
  cases e <;> trivial

/-- An entry on the ledger that moves nothing. -/
structure AccountLedgerEntry.Audit (entry : AccountLedgerEntry) : Prop where
  cash : entry.cashDelta = 0
  position : entry.positionDelta = 0
  reservedCash : entry.reservedCashDelta = 0
  reservedPosition : entry.reservedPositionDelta = 0
  fee : entry.feeDelta = 0

/-- An order that has matched comes to rest, expires or is used up. -/
inductive Finishes : MatchingEngine → Taker → List Event → MatchingEngine → Prop
  | rest {s : MatchingEngine} {t : Taker} : 0 < t.remaining → t.tif ≠ .ioc →
      Finishes s t (t.restedEvents s) (t.rested s)
  | expire {s : MatchingEngine} {t : Taker} : 0 < t.remaining → t.tif = .ioc →
      Finishes s t [.orderExpired t.id t.symbol] (s.appendLedgerEntry
        { accountId := t.accountId, symbol := t.symbol, reason := "ioc_fok_expiration_release",
          relatedOrderId := some t.id })
  | done {s : MatchingEngine} {t : Taker} : t.remaining ≤ 0 → Finishes s t [] s

/-- Trades of an auction at `price`, with what is left to execute before and after. -/
inductive Crosses (symbol : Symbol) (price : ℤ) :
    MatchingEngine → ℤ → List Event → List (OrderBook × ℤ) → MatchingEngine → ℤ → Prop
  | refl (s : MatchingEngine) (remaining : ℤ) :
      Crosses symbol price s remaining [] [] s remaining
  | trade {s s' : MatchingEngine} {remaining traded remaining' : ℤ} {bid ask : FillResult}
      {book book' : OrderBook} {events : List Event} {steps : List (OrderBook × ℤ)} :
      nextAuctionQty (s.bookFor symbol) price remaining = some traded →
      (s.bookFor symbol).fillBestAtOrBetter .bid price traded = some (bid, book) →
      book.fillBestAtOrBetter .ask price traded = some (ask, book') →
      Crosses symbol price (s.auctionTraded symbol price traded bid.makerId ask.makerId book')
        (remaining - traded) events steps s' remaining' →
      Crosses symbol price s remaining
        (auctionTradeEvents symbol bid.makerId ask.makerId price traded ++ events)
        ((s.bookFor symbol, traded) :: steps) s' remaining'

/-- What an order entry does. -/
inductive Placing (G : Guard) (symbol : Symbol) :
    MatchingEngine → List Event → List Entry → MatchingEngine → Prop
  | touch (s : MatchingEngine) {a : AccountId} : G.account a →
      Placing G symbol s [] [] (s.touchAccount a symbol)
  | report {s : MatchingEngine} {event : Event} : event.verdict → event.symbol = symbol →
      Placing G symbol s [event] [] s
  | audit (s : MatchingEngine) {entry : AccountLedgerEntry} : entry.Audit →
      Placing G symbol s [] [] (s.appendLedgerEntry entry)
  | restAuction {s : MatchingEngine} {t : Taker} : t.symbol = symbol → s.Admits t →
      G.account t.accountId → s.inAuction t.symbol →
      Placing G symbol s (t.restedEvents s) [(s, t)] (t.rested s)
  | enter {s s' s'' : MatchingEngine} {t t' : Taker} {events rested : List Event} :
      t.symbol = symbol → s.Admits t → G.account t.accountId → ¬ s.inAuction t.symbol →
      ¬ (t.tif = .fok ∧ (s.bookFor t.symbol).executableQty t.side t.price < t.remaining) →
      Matches s t events s' t' → Finishes s' t' rested s'' →
      Placing G symbol s (events ++ rested) [(s, t)] s''

/-- What an operation does. -/
inductive Step (G : Guard) (symbol : Symbol) :
    MatchingEngine → List Event → List Entry → MatchingEngine → Prop
  | placing {s s' : MatchingEngine} {events : List Event} {entries : List Entry} :
      Placing G symbol s events entries s' → Step G symbol s events entries s'
  | allocate (s : MatchingEngine) : Step G symbol s [] [] s.allocated
  | track (s : MatchingEngine) {events : List Event} : (∀ e ∈ events, e.symbol = symbol) →
      Step G symbol s [] [] (s.trackEvents events)
  | cancel {s : MatchingEngine} {id : OrderId} {owner : OrderOwnership} :
      s.orderOwnershipById.lookup id = some owner → owner.symbol = symbol → s.Rests symbol id →
      Step G symbol s (((s.bookFor symbol).cancel id).1.map (Event.tagCanceled symbol)) []
        (s.cancelResting owner.accountId symbol id)
  | addStop {s : MatchingEngine} {stop : StopOrderState} : stop.symbol = symbol →
      G.account stop.accountId → s.Free symbol stop.sequence →
      s.orderOwnershipById.lookup stop.sequence = none →
      Step G symbol s [.stopOrderAccepted stop.sequence stop.side stop.stopPrice stop.qty
        stop.limitPrice symbol] [] (s.addStop stop)
  | dropStop {s : MatchingEngine} {id : OrderId} {stop : StopOrderState} :
      s.stopOrdersById.lookup id = some stop → stop.symbol = symbol →
      Step G symbol s [.orderCanceled id symbol] [] (s.dropStop symbol id)
  | replaceStop {s : MatchingEngine} {id : OrderId} {stop : StopOrderState}
      {newStopPrice newQty : ℤ} {newLimitPrice : Option ℤ} :
      s.stopOrdersById.lookup id = some stop → stop.symbol = symbol →
      Step G symbol s [.orderCanceled id symbol,
        .stopOrderAccepted id stop.side newStopPrice newQty newLimitPrice symbol] []
        (s.withReplacedStop id stop newStopPrice newQty newLimitPrice)
  | trigger {s : MatchingEngine} {id : OrderId} {stop : StopOrderState} :
      s.stopOrdersById.lookup id = some stop → stop.symbol = symbol →
      Step G symbol s [s.triggeredEvent symbol id stop] [] (s.triggerStop symbol id stop)
  | haltAuction {s : MatchingEngine} {price qty : ℤ} :
      Step G symbol s (.orderRejected .bid price qty .auctionPriceOutOfBand symbol ::
        circuitBreakerEvents symbol price "AuctionPriceOutOfBand") []
        (s.withHalt symbol "AuctionPriceOutOfBand")
  /-- The trades of an auction, reported with the change they make to the best prices. -/
  | cross {s s' : MatchingEngine} {price qty remaining qty' imbalance : ℤ} {trades : List Event}
      {steps : List (OrderBook × ℤ)} :
      (∀ step ∈ steps, G.auction step.1 price step.2) →
      Crosses symbol price s qty trades steps s' remaining →
      nextAuctionQty (s'.bookFor symbol) price remaining = none →
      Step G symbol s (.auctionUncross symbol price qty' imbalance :: trades ++
        s'.maybeEmitTopOfBookChange symbol (s.bookFor symbol).bestBid (s.bookFor symbol).bestAsk) []
        s'
  | endAuction {s : MatchingEngine} : s.inAuction symbol →
      Step G symbol s [.auctionEnded symbol .continuous] [] (s.auctionEnded symbol)

/-- The steps that take orders out of the book by trades only. -/
inductive Adding (G : Guard) (symbol : Symbol) :
    MatchingEngine → List Event → List Entry → MatchingEngine → Prop
  | placing {s s' : MatchingEngine} {events : List Event} {entries : List Entry} :
      Placing G symbol s events entries s' → Adding G symbol s events entries s'
  | allocate (s : MatchingEngine) : Adding G symbol s [] [] s.allocated
  | track (s : MatchingEngine) {events : List Event} : (∀ e ∈ events, e.symbol = symbol) →
      Adding G symbol s [] [] (s.trackEvents events)
  | addStop {s : MatchingEngine} {stop : StopOrderState} : stop.symbol = symbol →
      G.account stop.accountId → s.Free symbol stop.sequence →
      s.orderOwnershipById.lookup stop.sequence = none →
      Adding G symbol s [.stopOrderAccepted stop.sequence stop.side stop.stopPrice stop.qty
        stop.limitPrice symbol] [] (s.addStop stop)
  | replaceStop {s : MatchingEngine} {id : OrderId} {stop : StopOrderState}
      {newStopPrice newQty : ℤ} {newLimitPrice : Option ℤ} :
      s.stopOrdersById.lookup id = some stop → stop.symbol = symbol →
      Adding G symbol s [.orderCanceled id symbol,
        .stopOrderAccepted id stop.side newStopPrice newQty newLimitPrice symbol] []
        (s.withReplacedStop id stop newStopPrice newQty newLimitPrice)
  | trigger {s : MatchingEngine} {id : OrderId} {stop : StopOrderState} :
      s.stopOrdersById.lookup id = some stop → stop.symbol = symbol →
      Adding G symbol s [s.triggeredEvent symbol id stop] [] (s.triggerStop symbol id stop)

theorem Adding.step {G : Guard} {symbol : Symbol} {s s' : MatchingEngine} {events : List Event}
    {entries : List Entry} (h : Adding G symbol s events entries s') :
    Step G symbol s events entries s' := by
  cases h with
  | placing hplacing => exact .placing hplacing
  | allocate => exact .allocate s
  | track htagged => exact .track s htagged
  | addStop hsymbol haccount hfree howner => exact .addStop hsymbol haccount hfree howner
  | replaceStop hstop hsymbol => exact .replaceStop hstop hsymbol
  | trigger hstop hsymbol => exact .trigger hstop hsymbol

/-- Some steps, with their events and entries in order. -/
inductive Steps (R : MatchingEngine → List Event → List Entry → MatchingEngine → Prop) :
    MatchingEngine → List Event → List Entry → MatchingEngine → Prop
  | refl (s : MatchingEngine) : Steps R s [] [] s
  | step {s s' s'' : MatchingEngine} {events more : List Event} {entries others : List Entry} :
      R s events entries s' → Steps R s' more others s'' →
      Steps R s (events ++ more) (entries ++ others) s''

namespace Steps
variable {R R' : MatchingEngine → List Event → List Entry → MatchingEngine → Prop}
  {s s' s'' : MatchingEngine} {events more : List Event} {entries others : List Entry}

theorem single (h : R s events entries s') : Steps R s events entries s' := by
  simpa using step h (refl s')

theorem trans (h : Steps R s events entries s') (h' : Steps R s' more others s'') :
    Steps R s (events ++ more) (entries ++ others) s'' := by
  induction h with
  | refl => exact h'
  | step hr _ ih =>
    rw [List.append_assoc, List.append_assoc]
    exact step hr (ih h')

/-- A step that emits and enters nothing, then more. -/
theorem silent (h : R s [] [] s') (h' : Steps R s' events entries s'') :
    Steps R s events entries s'' := step h h'

theorem snoc_silent (h : Steps R s events entries s') (h' : R s' [] [] s'') :
    Steps R s events entries s'' := by
  simpa using h.trans (single h')

theorem mono (hR : ∀ {s events entries s'}, R s events entries s' → R' s events entries s')
    (h : Steps R s events entries s') : Steps R' s events entries s' := by
  induction h with
  | refl => exact refl _
  | step hr _ ih => exact step (hR hr) ih

/-- What every step keeps, steps keep. -/
theorem invariant {I : MatchingEngine → Prop}
    (hstep : ∀ {s events entries s'}, I s → R s events entries s' → I s')
    (h : Steps R s events entries s') (hs : I s) : I s' := by
  induction h with
  | refl => exact hs
  | step hr _ ih => exact ih (hstep hs hr)

end Steps

/-- How an operation is cut short: by a fill or an auction trade whose accounts fail the
engine's assertion. -/
inductive Breaks (G : Guard) (symbol : Symbol) :
    MatchingEngine → List Entry → MatchingEngine → Prop
  | entry {s s' : MatchingEngine} {t : Taker} : t.symbol = symbol → s.Admits t →
      G.account t.accountId → ¬ s.inAuction t.symbol →
      ¬ (t.tif = .fok ∧ (s.bookFor t.symbol).executableQty t.side t.price < t.remaining) →
      Fails s t s' → Breaks G symbol s [(s, t)] s'
  | auction {s s' : MatchingEngine} {price qty remaining : ℤ} {trades : List Event}
      {steps : List (OrderBook × ℤ)} {a b : AccountId} :
      (∀ step ∈ steps, G.auction step.1 price step.2) →
      Crosses symbol price s qty trades steps s' remaining → s'.accounts.lookup a ≠ none →
      s'.accounts.lookup b ≠ none → ¬ s'.InvariantsHold symbol a b → Breaks G symbol s [] s'

/-! Steps are paths of ticks. -/
section Ticks
open Flight Transition
variable {G : Guard} {symbol : Symbol} {s s' : MatchingEngine} {events : List Event}
  {entries : List Entry}

/-- The match loop is a path of ticks. -/
theorem Matches.path {t t' : Taker} (h : Matches s t events s' t') :
    Path (Tick G) ⟨s, matching t⟩ events ⟨s', matched t'⟩ := by
  induction h with
  | done hnext => exact Path.single (Tick.finish hnext)
  | breach hnext hband =>
    refine Path.single (Tick.breach hnext hband fun e he => ?_)
    rcases List.mem_cons.mp he with rfl | he
    · trivial
    · rw [List.mem_singleton.mp he]
      trivial
  | fill hnext hband hhold _ ih => exact Path.step (Tick.fill hnext hband hhold inert_fillReport) ih

theorem Fails.aborts {t : Taker} (h : Fails s t s') :
    ∃ events c, Path (Tick G) ⟨s, matching t⟩ events c ∧ c.AbortsTo s' := by
  induction h with
  | abort hnext hband hhold => exact ⟨[], _, .refl _, ⟨_, _, hnext, hband, hhold, rfl⟩⟩
  | fill hnext hband hhold _ ih =>
    obtain ⟨events, c, hpath, habort⟩ := ih
    have htick : Tick G _ [tradeEvent _ _] _ := Tick.fill hnext hband hhold (by simp)
    exact ⟨_, c, Path.step htick hpath, habort⟩

theorem Finishes.path {t : Taker} (h : Finishes s t events s') :
    Path (Tick G) ⟨s, matched t⟩ events ⟨s', idle⟩ := by
  cases h with
  | rest hpos htif => exact Path.single (Tick.rest hpos htif)
  | expire hpos htif =>
    refine Path.snoc_silent (Path.single (Tick.record ?_ ?_)) (Tick.drop (Or.inr htif))
    · exact unjournaled_appendLedgerEntry s _
    · simp [Event.inert]
  | done hdone => exact Path.single (Tick.drop (Or.inl hdone))

theorem Crosses.path {price qty remaining : ℤ} {steps : List (OrderBook × ℤ)}
    (h : Crosses symbol price s qty events steps s' remaining)
    (hauction : ∀ step ∈ steps, G.auction step.1 price step.2) :
    Path (Tick G) ⟨s, idle⟩ events ⟨s', idle⟩ := by
  induction h with
  | refl => exact .refl _
  | trade hqty hbid hask _ ih =>
    exact Path.step (Tick.auctionTrade hqty (hauction _ List.mem_cons_self) hbid hask)
      (ih fun step hstep => hauction step (List.mem_cons_of_mem _ hstep))

theorem Placing.path (h : Placing G symbol s events entries s')
    (hentry : ∀ e ∈ entries, G.entry e.1 e.2) : Path (Tick G) ⟨s, idle⟩ events ⟨s', idle⟩ := by
  cases h with
  | touch ha => exact Path.single (Tick.touch s symbol ha)
  | report hverdict hsymbol =>
    exact Path.single (Tick.record rfl fun e he => by
      rw [List.mem_singleton.mp he]; exact hverdict.inert)
  | audit haudit =>
    exact Path.single (Tick.record (unjournaled_appendLedgerEntry s _) (by simp))
  | restAuction hsymbol hadmits haccount hphase =>
    exact Path.single (Tick.restAuction hadmits haccount (hentry _ List.mem_cons_self) hphase)
  | enter hsymbol hadmits haccount hphase hfok hmatches hfinishes =>
    have henter : Tick G _ [] _ := Tick.enter hadmits haccount (hentry _ List.mem_cons_self) hphase hfok
    have hpath := Path.step henter (hmatches.path.trans hfinishes.path)
    exact hpath

/-- A stop order's record and its place among the pending ones go together. -/
theorem MatchingEngine.Sound.pending_dropStop (hs : s.Sound G) {id : OrderId} {stop : StopOrderState}
    (hstop : s.stopOrdersById.lookup id = some stop) (hsymbol : stop.symbol = symbol) :
    ∀ symbol' id', id' ∈ (s.dropStop symbol id).pendingStopIds symbol' →
      ∃ stop, (s.stopOrdersById.erase id).lookup id' = some stop ∧ stop.symbol = symbol' := by
  intro symbol' id' hid'
  unfold pendingStopIds dropStop at hid'
  dsimp only at hid'
  rw [Finmap.valueD_insert] at hid'
  have hmem : id' ∈ s.pendingStopIds symbol' ∧ (symbol' = symbol → id' ≠ id) := by
    split_ifs at hid' with h
    · rw [List.mem_filter] at hid'
      exact ⟨h ▸ hid'.1, fun _ => of_decide_eq_true hid'.2⟩
    · exact ⟨hid', fun h' => absurd h' h⟩
  obtain ⟨stop', hstop', hsymbol'⟩ := hs.pending hmem.1
  have hid : id' ≠ id := fun heq => by
    rw [heq, hstop] at hstop'
    cases hstop'
    exact hmem.2 (hsymbol'.symm.trans hsymbol) heq
  exact ⟨stop', by rw [Finmap.lookup_erase_ne hid]; exact hstop', hsymbol'⟩

theorem MatchingEngine.Sound.pending_insert (hs : s.Sound G) {id : OrderId} {stop : StopOrderState}
    {symbol' : Symbol} {id' : OrderId} (hid' : id' ∈ s.pendingStopIds symbol')
    (hstop : ∀ old, s.stopOrdersById.lookup id = some old → old.symbol = stop.symbol) :
    ∃ stop', (s.stopOrdersById.insert id stop).lookup id' = some stop' ∧ stop'.symbol = symbol' := by
  obtain ⟨old, hold, hsymbol⟩ := hs.pending hid'
  rw [Finmap.lookup_insert_ite]
  split_ifs with hid
  · exact ⟨stop, rfl, (hstop old (hid ▸ hold)).symm.trans hsymbol⟩
  · exact ⟨old, hold, hsymbol⟩

theorem path_dropStop (hs : s.Sound G) {id : OrderId} {stop : StopOrderState}
    (hstop : s.stopOrdersById.lookup id = some stop) (hsymbol : stop.symbol = symbol)
    {event : List Event} (hevent : event = [] ∨ event = [.orderCanceled id symbol]) :
    Tick G ⟨s, idle⟩ event ⟨s.dropStop symbol id, idle⟩ := by
  refine Tick.stops (m := s.stopOrdersById.erase id) (fun e he => ?_) (fun id' stop' h => ?_)
    (hs.pending_dropStop hstop hsymbol)
  · rcases hevent with rfl | rfl
    · cases he
    · exact Or.inr ⟨id, symbol, by simp [hstop], List.mem_singleton.mp he⟩
  · rw [Finmap.lookup_erase_ite] at h
    split_ifs at h
    exact ⟨hs.stop_account h, Or.inl (by simp [h])⟩

theorem Step.path (hs : s.Sound G) (h : Step G symbol s events entries s')
    (hentry : ∀ e ∈ entries, G.entry e.1 e.2) : Path (Tick G) ⟨s, idle⟩ events ⟨s', idle⟩ := by
  cases h with
  | placing h => exact h.path hentry
  | allocate => exact Path.single (Tick.allocate s)
  | track => exact Path.single (Tick.record (unjournaled_trackEvents _ _) (by simp))
  | cancel howner hsymbol hrests =>
    subst hsymbol
    exact Path.single (Tick.cancel howner hrests)
  | @addStop stop hsymbol haccount hfree howner =>
    refine Path.single (Tick.stops (m := s.stopOrdersById.insert stop.sequence stop) (fun e he => ?_)
      (fun id' stop' h => ?_) fun symbol' id' hid' => ?_)
    · rw [List.mem_singleton.mp he]
      exact Or.inl trivial
    · rw [Finmap.lookup_insert_ite] at h
      split_ifs at h with hid
      · cases h
        exact ⟨haccount, Or.inr ⟨hid ▸ hfree.lt, hid ▸ howner, hid ▸ hfree.rests⟩⟩
      · exact ⟨hs.stop_account h, Or.inl (by simp [h])⟩
    · have hnone : ∀ old, s.stopOrdersById.lookup stop.sequence = some old →
          old.symbol = stop.symbol := fun old hold => by
        rw [hfree.stop] at hold
        cases hold
      rw [Finmap.valueD_insert] at hid'
      split_ifs at hid' with hsymbol'
      · rcases List.mem_append.mp hid' with hold | hnew
        · exact hs.pending_insert (hsymbol' ▸ hold) hnone
        · rw [List.mem_singleton.mp hnew, Finmap.lookup_insert]
          exact ⟨stop, rfl, hsymbol'.symm⟩
      · exact hs.pending_insert hid' hnone
  | dropStop hstop hsymbol => exact Path.single (path_dropStop hs hstop hsymbol (Or.inr rfl))
  | @replaceStop id stop newStopPrice newQty newLimitPrice hstop hsymbol =>
    refine Path.single (Tick.stops (fun e he => ?_) (fun id' stop' h => ?_) fun symbol' id' hid' => ?_)
    · rcases List.mem_cons.mp he with rfl | he
      · exact Or.inr ⟨id, symbol, by simp [hstop], rfl⟩
      · rw [List.mem_singleton.mp he]
        exact Or.inl trivial
    · rw [Finmap.lookup_insert_ite] at h
      split_ifs at h with hid
      · cases h
        have haccount := hs.stop_account hstop
        exact ⟨haccount, Or.inl (by rw [hid, hstop]; simp)⟩
      · exact ⟨hs.stop_account h, Or.inl (by simp [h])⟩
    · exact hs.pending_insert hid' fun old hold => by rw [hstop] at hold; cases hold; rfl
  | @trigger id stop hstop hsymbol =>
    have hdrop := path_dropStop hs hstop hsymbol (Or.inl rfl)
    have hrecord : Tick G ⟨(s.dropStop symbol id).allocated, idle⟩
        [s.triggeredEvent symbol id stop] ⟨s.triggerStop symbol id stop, idle⟩ :=
      Tick.record rfl (by simp [triggeredEvent, Event.inert])
    exact Path.step hdrop (Path.step (Tick.allocate _) (Path.single hrecord))
  | @haltAuction price qty =>
    have hrecord : Tick G ⟨s, idle⟩ (.orderRejected .bid price qty .auctionPriceOutOfBand symbol ::
        circuitBreakerEvents symbol price "AuctionPriceOutOfBand") ⟨s, idle⟩ :=
      Tick.record rfl (by simp [circuitBreakerEvents, Event.inert])
    exact (Path.single hrecord).snoc_silent (Tick.halt s symbol _)
  | @cross s' price qty remaining qty' imbalance trades steps hauction hcrosses hdone =>
    have hhead : Tick G ⟨s, idle⟩ [.auctionUncross symbol price qty' imbalance] ⟨s, idle⟩ :=
      Tick.record rfl (by simp [Event.inert])
    have htop : Tick G ⟨s', idle⟩ (s'.maybeEmitTopOfBookChange symbol (s.bookFor symbol).bestBid
        (s.bookFor symbol).bestAsk) ⟨s', idle⟩ := Tick.record rfl inert_topOfBook
    have hpath := Path.step hhead ((hcrosses.path hauction).trans (Path.single htop))
    simpa using hpath
  | endAuction hphase => exact Path.single (Tick.endAuction hphase)

/-- Soundness does not depend on the conditions on entries and auctions. -/
theorem MatchingEngine.Sound.of_guard {G G' : Guard} (hs : s.Sound G)
    (haccount : ∀ a, G.account a → G'.account a) (howner : ∀ a, G.owner a → G'.owner a) :
    s.Sound G' :=
  ⟨hs.book, hs.rests_lt, hs.rests_unique, hs.owner_lt, hs.owner_symbol,
    fun h => howner _ (hs.owner_account h), hs.stop_lt, fun h => haccount _ (hs.stop_account h),
    hs.stop_rests, hs.stop_owner, hs.unreserved, hs.pending⟩

/-- The guard without a condition on entries. -/
def Guard.open (G : Guard) : Guard := { G with entry := fun _ _ => True }

theorem Step.open (h : Step G symbol s events entries s') : Step G.open symbol s events entries s' := by
  cases h with
  | placing h =>
    refine .placing ?_
    cases h with
    | touch ha => exact .touch s ha
    | report hverdict hsymbol => exact .report hverdict hsymbol
    | audit haudit => exact .audit s haudit
    | restAuction hsymbol hadmits haccount hphase => exact .restAuction hsymbol hadmits haccount hphase
    | enter hsymbol hadmits haccount hphase hfok hmatches hfinishes =>
      exact .enter hsymbol hadmits haccount hphase hfok hmatches hfinishes
  | allocate => exact .allocate s
  | track hsymbol => exact .track s hsymbol
  | cancel howner hsymbol hrests => exact .cancel howner hsymbol hrests
  | addStop hsymbol haccount hfree howner => exact .addStop hsymbol haccount hfree howner
  | dropStop hstop hsymbol => exact .dropStop hstop hsymbol
  | replaceStop hstop hsymbol => exact .replaceStop hstop hsymbol
  | trigger hstop hsymbol => exact .trigger hstop hsymbol
  | haltAuction => exact .haltAuction
  | cross hauction hcrosses hdone => exact .cross hauction hcrosses hdone
  | endAuction hphase => exact .endAuction hphase

theorem Step.sound (hs : s.Sound G) (h : Step G symbol s events entries s') : s'.Sound G := by
  have hopen : s.Sound G.open := hs.of_guard (fun _ ha => ha) fun _ ha => ha
  have hpath := h.open.path hopen fun _ _ => trivial
  have hs' := (hpath.invariant (I := Config.Sound G.open) Tick.sound ⟨hopen, trivial⟩).1
  exact hs'.of_guard (fun _ ha => ha) fun _ ha => ha

/-- Taking an id keeps the engine sound. -/
theorem MatchingEngine.Sound.allocated (hs : s.Sound G) : s.allocated.Sound G := by
  have hallocate : Step G defaultSymbol s [] [] s.allocated := .allocate s
  exact hallocate.sound hs

theorem Steps.sound (hs : s.Sound G) (h : Steps (Step G symbol) s events entries s') : s'.Sound G :=
  h.invariant (fun hs hr => Step.sound hs hr) hs

/-- Steps whose entries meet the guard are a path of ticks. -/
theorem Steps.sound_adding (hs : s.Sound G) (h : Steps (Adding G symbol) s events entries s') :
    s'.Sound G :=
  Steps.sound hs (h.mono Adding.step)

theorem Steps.path (h : Steps (Step G symbol) s events entries s') (hs : s.Sound G)
    (hentry : ∀ e ∈ entries, G.entry e.1 e.2) : Path (Tick G) ⟨s, idle⟩ events ⟨s', idle⟩ := by
  induction h with
  | refl => exact .refl _
  | step hr _ ih =>
    exact (hr.path hs fun e he => hentry e (List.mem_append_left _ he)).trans
      (ih (hr.sound hs) fun e he => hentry e (List.mem_append_right _ he))

theorem Breaks.aborts (h : Breaks G symbol s entries s') (hentry : ∀ e ∈ entries, G.entry e.1 e.2) :
    ∃ events c, Path (Tick G) ⟨s, idle⟩ events c ∧ c.AbortsTo s' := by
  cases h with
  | entry hsymbol hadmits haccount hphase hfok hfails =>
    obtain ⟨events, c, hpath, habort⟩ := hfails.aborts (G := G)
    have henter : Tick G _ [] _ := Tick.enter hadmits haccount (hentry _ List.mem_cons_self) hphase hfok
    exact ⟨_, c, Path.step henter hpath, habort⟩
  | auction hauction hcrosses ha hb hnot =>
    exact ⟨_, _, hcrosses.path hauction, rfl, symbol, _, _, ha, hb, hnot⟩

end Ticks
/-! What an order entry leaves alone: a field that no fill and no resting order writes. -/
section Reads
variable {G : Guard} {symbol : Symbol} {s s' : MatchingEngine} {events : List Event}
  {entries : List Entry} {α : Type}

/-- A part of the state that books, owners, halts and whatever a frame blanks do not touch. -/
structure Aside (f : MatchingEngine → α) : Prop where
  frame : ∀ {s s' : MatchingEngine}, s.frame = s'.frame → f s = f s'
  book : ∀ s symbol book, f (s.setBook symbol book) = f s
  owners : ∀ s owners, f { s with orderOwnershipById := owners } = f s
  halt : ∀ s symbol reason, f (s.withHalt symbol reason) = f s

theorem aside_stops : Aside MatchingEngine.stopOrdersById :=
  ⟨stops_of_frame, fun _ _ _ => rfl, fun _ _ => rfl, fun _ _ _ => rfl⟩

theorem aside_pendingStops : Aside MatchingEngine.pendingStopIdsBySymbol :=
  ⟨pendingStops_of_frame, fun _ _ _ => rfl, fun _ _ => rfl, fun _ _ _ => rfl⟩

theorem Matches.reads {f : MatchingEngine → α} (hf : Aside f) {t t' : Taker}
    (h : Matches s t events s' t') : f s' = f s := by
  induction h with
  | done => rfl
  | breach hnext hband =>
    rw [breached, hf.halt, hf.frame (frame_settleFill _ _ _ _), hf.book]
  | fill hnext hband hhold _ ih =>
    rw [ih, filled, read_updateOwner f hf.owners, hf.frame (frame_journaled _ _ _ _), hf.book]

theorem reads_rested {f : MatchingEngine → α} (hf : Aside f) (s : MatchingEngine) (t : Taker) :
    f (t.rested s) = f s := by
  rw [Taker.rested, hf.frame (frame_restOrder _ _ _ _ _ _ _ _ _)]
  exact (hf.owners _ _).trans (hf.book _ _ _)

theorem Finishes.reads {f : MatchingEngine → α} (hf : Aside f) {t : Taker}
    (h : Finishes s t events s') : f s' = f s := by
  cases h with
  | rest => exact reads_rested hf s t
  | expire => exact hf.frame (frame_appendLedgerEntry _ _)
  | done => rfl

theorem Placing.reads {f : MatchingEngine → α} (hf : Aside f)
    (h : Placing G symbol s events entries s') : f s' = f s := by
  cases h with
  | touch => exact hf.frame (frame_touchAccount _ _ _)
  | report => rfl
  | audit => exact hf.frame (frame_appendLedgerEntry _ _)
  | restAuction => exact reads_rested hf s _
  | enter _ _ _ _ _ hmatches hfinishes => exact (hfinishes.reads hf).trans (hmatches.reads hf)

theorem Steps.reads {f : MatchingEngine → α} (hf : Aside f)
    (h : Steps (Placing G symbol) s events entries s') : f s' = f s := by
  induction h with
  | refl => rfl
  | step hr _ ih => exact ih.trans (hr.reads hf)

end Reads
/-! Every event of a step names its symbol. -/
section Tags
variable {G : Guard} {symbol : Symbol} {s s' : MatchingEngine} {events : List Event}
  {entries : List Entry}

theorem symbol_topOfBook {book : OrderBook} {bid ask : Option ℤ} :
    ∀ e ∈ book.maybeEmitTopOfBookChange symbol bid ask, e.symbol = symbol := by
  intro e he
  unfold OrderBook.maybeEmitTopOfBookChange at he
  split_ifs at he
  · rw [List.mem_singleton.mp he]
    rfl
  · cases he

theorem symbol_circuitBreaker {price : ℤ} {reason : String} :
    ∀ e ∈ circuitBreakerEvents symbol price reason, e.symbol = symbol := by
  simp [circuitBreakerEvents, Event.symbol]

theorem symbol_fillReport {t : Taker} {fill : FillResult} {book : OrderBook} :
    ∀ e ∈ s.fillReport t fill book, e.symbol = t.symbol := by
  intro e he
  rcases List.mem_append.mp he with he | he
  · unfold fillEvents at he
    rcases List.mem_append.mp he with he | he
    · split at he
      · rw [List.mem_singleton.mp he]
        rfl
      · cases he
    · split_ifs at he <;> rw [List.mem_singleton.mp he] <;> rfl
  · exact symbol_topOfBook e he

theorem symbol_tagAccepted (book : OrderBook) (order : Order) (visibility : OrderVisibility) :
    ∀ e ∈ (book.addOrder order visibility).1, (e.tagAccepted symbol).symbol = symbol := by
  intro e he
  unfold OrderBook.addOrder at he
  split_ifs at he
  · cases he
  · rcases List.mem_cons.mp he with rfl | he
    · unfold acceptedEvent
      split <;> rfl
    · unfold OrderBook.maybeEmitTopOfBookChange at he
      split_ifs at he
      · rw [List.mem_singleton.mp he]
        rfl
      · cases he

theorem symbol_restedEvents (s : MatchingEngine) (t : Taker) :
    ∀ e ∈ t.restedEvents s, e.symbol = t.symbol := by
  intro e he
  unfold Taker.restedEvents restEvents bookAdd at he
  obtain ⟨event, hevent, rfl⟩ := List.mem_map.mp he
  cases hv : t.visibility <;> rw [hv] at hevent <;> exact symbol_tagAccepted _ _ _ event hevent

theorem symbol_cancel (book : OrderBook) (id : OrderId) :
    ∀ e ∈ (book.cancel id).1.map (Event.tagCanceled symbol), e.symbol = symbol := by
  intro e he
  obtain ⟨event, hevent, rfl⟩ := List.mem_map.mp he
  unfold OrderBook.cancel at hevent
  split at hevent
  · cases hevent
  · dsimp only at hevent
    rcases List.mem_cons.mp hevent with rfl | htop
    · rfl
    · unfold OrderBook.maybeEmitTopOfBookChange at htop
      split_ifs at htop
      · rw [List.mem_singleton.mp htop]
        rfl
      · cases htop

theorem Matches.tagged {t t' : Taker} (h : Matches s t events s' t') :
    ∀ e ∈ events, e.symbol = t.symbol := by
  induction h with
  | done => simp
  | breach =>
    intro e he
    rcases List.mem_cons.mp he with rfl | he
    · rfl
    · exact symbol_circuitBreaker e he
  | fill _ _ _ _ ih =>
    intro e he
    rcases List.mem_append.mp he with he | he
    · rcases List.mem_cons.mp he with rfl | he
      · rfl
      · exact symbol_fillReport e he
    · exact ih e he

theorem Matches.symbol_eq {t t' : Taker} (h : Matches s t events s' t') : t'.symbol = t.symbol := by
  induction h with
  | done => rfl
  | breach => rfl
  | fill _ _ _ _ ih => exact ih

theorem Finishes.tagged {t : Taker} (h : Finishes s t events s') : ∀ e ∈ events, e.symbol = t.symbol := by
  cases h with
  | rest => exact symbol_restedEvents s t
  | expire => simp [Event.symbol]
  | done => simp

theorem Crosses.tagged {price qty remaining : ℤ} {steps : List (OrderBook × ℤ)}
    (h : Crosses symbol price s qty events steps s' remaining) : ∀ e ∈ events, e.symbol = symbol := by
  induction h with
  | refl => simp
  | trade _ _ _ _ ih =>
    intro e he
    rcases List.mem_append.mp he with he | he
    · have hall : ∀ bidId askId price qty, ∀ e ∈ auctionTradeEvents symbol bidId askId price qty,
          e.symbol = symbol := by simp [auctionTradeEvents, Event.symbol]
      exact hall _ _ _ _ e he
    · exact ih e he

theorem Placing.tagged (h : Placing G symbol s events entries s') : ∀ e ∈ events, e.symbol = symbol := by
  cases h with
  | touch => simp
  | report hverdict hsymbol =>
    intro e he
    rw [List.mem_singleton.mp he, hsymbol]
  | audit => simp
  | restAuction hsymbol => exact hsymbol ▸ symbol_restedEvents s _
  | enter hsymbol _ _ _ _ hmatches hfinishes =>
    intro e he
    rcases List.mem_append.mp he with he | he
    · exact (hmatches.tagged e he).trans hsymbol
    · exact (hfinishes.tagged e he).trans (hmatches.symbol_eq.trans hsymbol)

theorem Step.tagged (h : Step G symbol s events entries s') : ∀ e ∈ events, e.symbol = symbol := by
  cases h with
  | placing h => exact h.tagged
  | cancel => exact symbol_cancel _ _
  | cross _ hcrosses =>
    intro e he
    rcases List.mem_append.mp he with he | he
    · rcases List.mem_cons.mp he with rfl | he
      · rfl
      · exact hcrosses.tagged e he
    · exact symbol_topOfBook e he
  | _ => simp [Event.symbol, circuitBreakerEvents, triggeredEvent]

theorem Steps.tagged (h : Steps (Step G symbol) s events entries s') :
    ∀ e ∈ events, e.symbol = symbol := by
  induction h with
  | refl => simp
  | step hr _ ih => exact fun e he => (List.mem_append.mp he).elim (hr.tagged e) (ih e)

end Tags
end Tes
