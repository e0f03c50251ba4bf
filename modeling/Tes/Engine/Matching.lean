import Tes.Engine.Soundness

/-! The match loop as one relation: it fills until nothing crosses or the order is filled,
unless a fill leaves the price band or breaks the engine's own invariants. -/
namespace Tes
open OrderBook MatchingEngine EStateM

namespace MatchingEngine

/-! The engine's own assertion. -/
section Assert
variable {s : MatchingEngine} {symbol : Symbol} {a b : AccountId} {Q : Unit → MatchingEngine → Prop}
  {E : EngineError → MatchingEngine → Prop}

theorem outcome_assert_of_hold (h : s.InvariantsHold symbol a b) :
    Outcome (assertInvariants symbol a b) s Q E ↔ Q ⟨⟩ s := by
  obtain ⟨⟨ha, hb⟩, hcash, hshort, hqty⟩ := h
  obtain ⟨taker, htaker⟩ := Option.ne_none_iff_exists'.mp ha
  obtain ⟨maker, hmaker⟩ := Option.ne_none_iff_exists'.mp hb
  simp only [account, Finmap.valueD, htaker, hmaker, Option.getD_some] at hcash hshort hqty
  unfold assertInvariants
  simp only [outcome_bind, outcome_get, htaker, hmaker]
  rw [if_neg (by omega), if_neg (by omega), outcome_pure]

theorem outcome_assert_of_not (h : ¬ s.InvariantsHold symbol a b) (hE : ∀ e, E e s) :
    Outcome (assertInvariants symbol a b) s Q E := by
  unfold assertInvariants
  simp only [outcome_bind, outcome_get]
  split
  · rename_i taker maker htaker hmaker
    split_ifs with hcash hqty
    · exact hE _
    · exact hE _
    · refine absurd ⟨⟨by simp [htaker], by simp [hmaker]⟩, ?_, ?_, ?_⟩ h <;>
        simp only [account, Finmap.valueD, htaker, hmaker, Option.getD_some] <;> omega
  · exact hE _

end Assert

/-! The accounts of a trade exist once it has settled. -/
section Present
variable {s : MatchingEngine} {a : AccountId}

theorem present_updateAccount (b : AccountId) (f : AccountSnapshot → AccountSnapshot)
    (h : a = b ∨ s.accounts.lookup a ≠ none) : (s.updateAccount b f).accounts.lookup a ≠ none := by
  unfold updateAccount
  dsimp only
  rw [Finmap.lookup_insert_ite]
  split_ifs with hab
  · simp
  · exact h.resolve_left hab

theorem present_exchange (symbol : Symbol) (side : Side) (price qty : ℤ) (b c : AccountId)
    (h : a = b ∨ a = c) : (s.exchange symbol side price qty b c).accounts.lookup a ≠ none := by
  rcases h with rfl | rfl
  · exact present_updateAccount _ _ (Or.inr (present_updateAccount _ _ (Or.inl rfl)))
  · exact present_updateAccount _ _ (Or.inl rfl)

theorem present_releaseQty (b : AccountId) (symbol : Symbol) (id : OrderId) (qty : ℤ)
    (h : s.accounts.lookup a ≠ none) : (s.releaseQty b symbol id qty).accounts.lookup a ≠ none := by
  unfold releaseQty
  split
  · exact h
  · dsimp only
    exact present_updateAccount _ _ (Or.inr h)

theorem present_releaseCash (b : AccountId) (id : OrderId) (qty before : ℤ)
    (h : s.accounts.lookup a ≠ none) : (s.releaseCash b id qty before).accounts.lookup a ≠ none := by
  unfold releaseCash
  split
  · exact h
  · dsimp only
    exact present_updateAccount _ _ (Or.inr h)

theorem present_releaseShortMargin (b : AccountId) (id : OrderId) (qty before : ℤ)
    (h : s.accounts.lookup a ≠ none) :
    (s.releaseShortMargin b id qty before).accounts.lookup a ≠ none := by
  unfold releaseShortMargin
  split
  · exact h
  · dsimp only
    exact present_updateAccount _ _ (Or.inr h)

theorem present_settleFill (t : Taker) (fill : FillResult) (book : OrderBook)
    (h : a = t.accountId ∨ a = s.ownerAccountId fill.makerId) :
    (s.settleFill t fill book).accounts.lookup a ≠ none := by
  unfold settleFill
  dsimp only
  cases t.side with
  | bid => exact present_releaseShortMargin _ _ _ _ (present_releaseQty _ _ _ _
      (present_exchange _ _ _ _ _ _ h))
  | ask => exact present_releaseCash _ _ _ _ (present_exchange _ _ _ _ _ _ h)

theorem present_journaled (t : Taker) (fill : FillResult) (book : OrderBook)
    (h : a = t.accountId ∨ a = s.ownerAccountId fill.makerId) :
    (s.journaled t fill book).accounts.lookup a ≠ none := by
  have hsame : (s.journaled t fill book).accounts = (s.settleFill t fill book).accounts :=
    accounts_of_money (money_of_unjournaled (unjournaled_journalFill _ _ _ _))
  rw [hsame]
  exact present_settleFill t fill book h

theorem present_auctionTraded (symbol : Symbol) (price traded : ℤ) (bidId askId : OrderId)
    (book : OrderBook) (h : a = s.ownerAccountId bidId ∨ a = s.ownerAccountId askId) :
    (s.auctionTraded symbol price traded bidId askId book).accounts.lookup a ≠ none := by
  unfold auctionTraded
  rw [read_reduceOwner MatchingEngine.accounts fun _ _ => rfl,
    read_reduceOwner MatchingEngine.accounts fun _ _ => rfl]
  have hreleased := present_releaseShortMargin ((s.setBook symbol book).ownerAccountId askId) askId
    traded ((s.setBook symbol book).ownedQty askId traded) (present_releaseQty
    ((s.setBook symbol book).ownerAccountId askId) symbol askId traded (present_releaseCash
    ((s.setBook symbol book).ownerAccountId bidId) bidId traded
    ((s.setBook symbol book).ownedQty bidId traded) (present_exchange (s := s.setBook symbol book)
      symbol .bid price traded _ _ h)))
  unfold settleAuction
  dsimp only
  rw [accounts_of_money (money_of_unjournaled (unjournaled_journalFee _ _ _ _ _ _)),
    accounts_of_money (money_of_unjournaled (unjournaled_journalFee _ _ _ _ _ _))]
  exact hreleased

end Present

theorem inert_topOfBook {book : OrderBook} {symbol : Symbol} {bid ask : Option ℤ} :
    ∀ e ∈ book.maybeEmitTopOfBookChange symbol bid ask, e.inert := by
  intro e he
  unfold OrderBook.maybeEmitTopOfBookChange at he
  split_ifs at he
  · rw [List.mem_singleton.mp he]
    trivial
  · cases he

theorem inert_fillEvents {t : Taker} {fill : FillResult} : ∀ e ∈ fillEvents t fill, e.inert := by
  intro e he
  unfold fillEvents at he
  rcases List.mem_append.mp he with he | he
  · split at he
    · rw [List.mem_singleton.mp he]
      trivial
    · cases he
  · split_ifs at he <;> rw [List.mem_singleton.mp he] <;> trivial

/-- What is reported of a fill inside the price band, after the trade. -/
def fillReport (s : MatchingEngine) (t : Taker) (fill : FillResult) (book : OrderBook) :
    List Event :=
  fillEvents t fill ++ book.maybeEmitTopOfBookChange t.symbol (s.bookFor t.symbol).bestBid
    (s.bookFor t.symbol).bestAsk

theorem inert_fillReport {s : MatchingEngine} {t : Taker} {fill : FillResult} {book : OrderBook} :
    ∀ e ∈ s.fillReport t fill book, e.inert := by
  intro e he
  rcases List.mem_append.mp he with he | he
  · exact inert_fillEvents e he
  · exact inert_topOfBook e he

/-! Books and phases after a fill. -/

theorem bookFor_filled (s : MatchingEngine) (t : Taker) (fill : FillResult) (book : OrderBook)
    (symbol : Symbol) : (s.filled t fill book).bookFor symbol =
      if symbol = t.symbol then book else s.bookFor symbol := by
  have hbooks : (s.filled t fill book).books = (s.journaled t fill book).books :=
    read_updateOwner MatchingEngine.books (fun _ _ => rfl) _ fill
  rw [bookFor, hbooks, ← bookFor, bookFor_of_frame (frame_journaled s t fill book), bookFor_setBook]

theorem bookFor_breached (s : MatchingEngine) (t : Taker) (fill : FillResult) (book : OrderBook)
    (symbol : Symbol) : (s.breached t fill book).bookFor symbol =
      if symbol = t.symbol then book else s.bookFor symbol := by
  have hbooks : (s.breached t fill book).bookFor symbol = (s.settleFill t fill book).bookFor symbol :=
    rfl
  rw [hbooks, bookFor_of_frame (frame_settleFill s t fill book), bookFor_setBook]

end MatchingEngine

/-- The match loop takes the engine from `s` to `s'` and the order from `t` to `t'`. -/
inductive Matches : MatchingEngine → Taker → List Event → MatchingEngine → Taker → Prop
  | done {s : MatchingEngine} {t : Taker} : s.nextFill t = none → Matches s t [] s t
  | breach {s : MatchingEngine} {t : Taker} {fill : FillResult} {book : OrderBook} :
      s.nextFill t = some (fill, book) → ¬ s.priceInBand t.symbol fill.price →
      Matches s t
        (tradeEvent t fill :: circuitBreakerEvents t.symbol fill.price "TradePriceBandBreach")
        (s.breached t fill book) (t.after fill)
  | fill {s s' : MatchingEngine} {t t' : Taker} {fill : FillResult} {book : OrderBook}
      {events : List Event} :
      s.nextFill t = some (fill, book) → s.priceInBand t.symbol fill.price →
      (s.journaled t fill book).InvariantsHold t.symbol t.accountId
        (s.ownerAccountId fill.makerId) →
      Matches (s.filled t fill book) (t.after fill) events s' t' →
      Matches s t (tradeEvent t fill :: s.fillReport t fill book ++ events) s' t'

/-- The match loop throws and leaves the engine in `s'`. -/
inductive Fails : MatchingEngine → Taker → MatchingEngine → Prop
  | abort {s : MatchingEngine} {t : Taker} {fill : FillResult} {book : OrderBook} :
      s.nextFill t = some (fill, book) → s.priceInBand t.symbol fill.price →
      ¬ (s.journaled t fill book).InvariantsHold t.symbol t.accountId
        (s.ownerAccountId fill.makerId) →
      Fails s t (s.journaled t fill book)
  | fill {s s' : MatchingEngine} {t : Taker} {fill : FillResult} {book : OrderBook} :
      s.nextFill t = some (fill, book) → s.priceInBand t.symbol fill.price →
      (s.journaled t fill book).InvariantsHold t.symbol t.accountId
        (s.ownerAccountId fill.makerId) →
      Fails (s.filled t fill book) (t.after fill) s' → Fails s t s'

/-- The quantity of the order is fuel enough for its matching. -/
theorem MatchingEngine.matchLoop_matches {fuel : ℕ} {s : MatchingEngine} {t : Taker}
    (hb : (s.bookFor t.symbol).WellFormed) (hfuel : t.remaining ≤ fuel) :
    Outcome (matchLoop fuel t) s (fun r s' => Matches s t r.2 s' r.1) fun _ s' => Fails s t s' := by
  induction fuel generalizing s t with
  | zero =>
    refine Matches.done ((nextFill_eq_none hb).mpr (Or.inl ?_))
    exact_mod_cast hfuel
  | succ fuel ih =>
    rw [matchLoop]
    simp only [outcome_bind, outcome_get]
    cases hnext : s.nextFill t with
    | none => exact Matches.done hnext
    | some next =>
      obtain ⟨fill, book⟩ := next
      obtain ⟨maker, rest, hfill, -⟩ := nextFill_some hb hnext
      have hpos := hfill.fill_qty_pos
      have hbands : (s.settleFill t fill book).priceInBand t.symbol fill.price ↔
          s.priceInBand t.symbol fill.price :=
        priceInBand_of_frame ((frame_settleFill s t fill book).trans rfl) _ _
      dsimp only
      by_cases hband : s.priceInBand t.symbol fill.price
      · rw [if_pos (hbands.mpr hband)]
        simp only [outcome_bind, outcome_set]
        by_cases hhold : (s.journaled t fill book).InvariantsHold t.symbol t.accountId
            (s.ownerAccountId fill.makerId)
        · refine (outcome_assert_of_hold hhold).mpr (outcome_modify.mpr ?_)
          have hbook : ((s.filled t fill book).bookFor (t.after fill).symbol).WellFormed := by
            have hsame : (s.filled t fill book).bookFor (t.after fill).symbol = book := by
              rw [bookFor_filled, show (t.after fill).symbol = t.symbol from rfl, if_pos rfl]
            rw [hsame]
            exact hfill.wellFormed_after
          have hrest := ih hbook (by unfold Taker.after; dsimp only; push_cast at hfuel; omega)
          refine hrest.mono (fun r s' hmatches => ?_) (fun e s' hfails => ?_)
          · simpa [fillReport] using Matches.fill hnext hband hhold hmatches
          · exact Fails.fill hnext hband hhold hfails
        · exact outcome_assert_of_not hhold fun e => Fails.abort hnext hband hhold
      · rw [if_neg (hbands.not.mpr hband)]
        exact Matches.breach hnext hband

end Tes
