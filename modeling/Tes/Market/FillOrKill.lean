import Tes.Ledger.Funding
import Tes.Ledger.Rejections
import Tes.Market.Immediate
import Tes.Market.Uncross

/-! Fill-or-kill orders are all or nothing, but for a first fill outside the price band. -/
namespace Tes
open OrderBook MatchingEngine EStateM Flight

/-- What the event says that the order traded as taker. -/
def Event.takenBy (id : OrderId) : Event → ℤ
  | .tradeExecuted takerId _ _ _ qty _ => if takerId = id then qty else 0
  | _ => 0

/-- The quantity that the order traded as taker. -/
def takenBy (id : OrderId) (events : List Event) : ℤ := (events.map (Event.takenBy id)).sum

section Taken
variable {id : OrderId} {events more : List Event}

theorem takenBy_append : takenBy id (events ++ more) = takenBy id events + takenBy id more := by
  rw [takenBy, List.map_append, List.sum_append]
  rfl

theorem takenBy_of_inert (h : ∀ e ∈ events, e.inert) : takenBy id events = 0 := by
  refine List.sum_eq_zero fun x hx => ?_
  obtain ⟨e, he, rfl⟩ := List.mem_map.mp hx
  have hinert := h e he
  cases e with
  | tradeExecuted => exact hinert.elim
  | _ => rfl

theorem takenBy_tradeEvent (t : Taker) (fill : FillResult) :
    takenBy t.id [tradeEvent t fill] = fill.qty := by
  simp [takenBy, tradeEvent, Event.takenBy]

end Taken

section Fills
variable {G : Guard} {s s' : MatchingEngine} {t t' : Taker} {events : List Event}

/-- A fill takes from what can be executed what it gives the order. -/
theorem OrderBook.BestFill.executableQty_after {book book' : OrderBook} {t : Taker}
    {fill : FillResult} {maker : Order} {rest : List Order}
    (h : BestFill book book' t.side.opposite t.remaining fill maker rest)
    (hcross : crosses t.side t.price maker.price) :
    book'.executableQty t.side t.price = book.executableQty t.side t.price - fill.qty := by
  have hsurvivor : (survivor maker fill.qty).elim 0 (fun order =>
      if crosses t.side t.price order.price then totalRemainingQty order else 0) =
        totalRemainingQty maker - fill.qty := by
    rw [← survivor_total]
    cases hleft : survivor maker fill.qty with
    | none => rfl
    | some left =>
      have hprice := (survivor_some hleft).price
      simp only [Option.elim_some, hprice, if_pos hcross]
  rw [h.wellFormed_after.executableQty_eq, h.wellFormed.executableQty_eq,
    h.toFillStep.sideTotal_after, if_pos rfl, hsurvivor, if_pos hcross]
  omega

/-- Inside the price band an order for no more than can be executed is filled. -/
theorem Fillings.filled (hs : s.Sound G) (h : Fillings s t events s' t')
    (hpos : 0 ≤ t.remaining)
    (henough : t.remaining ≤ (s.bookFor t.symbol).executableQty t.side t.price) :
    takenBy t.id events = t.remaining ∧ t'.remaining = 0 := by
  induction h with
  | done hnext =>
    have hover := (nextFill_eq_none (hs.book _)).mp hnext
    refine ⟨?_, by omega⟩
    rw [takenBy, List.map_nil, List.sum_nil]
    omega
  | @fill s s' t t' fill book events hnext _ _ _ ih =>
    obtain ⟨maker, rest, hfill, hcross⟩ := nextFill_some (hs.book t.symbol) hnext
    have hle := hfill.fill_qty_le
    have hbook : (s.filled t fill book).bookFor t.symbol = book := by
      rw [bookFor_filled]
      exact if_pos rfl
    have hrest := ih ((narrows_filled hs hnext).sound hs) (by unfold Taker.after; dsimp only; omega) (by
      show t.remaining - fill.qty ≤ ((s.filled t fill book).bookFor t.symbol).executableQty t.side t.price
      rw [hbook, hfill.executableQty_after hcross]
      omega)
    refine ⟨?_, hrest.2⟩
    have htaken : takenBy t.id events = t.remaining - fill.qty := hrest.1
    rw [List.cons_append, ← List.singleton_append, takenBy_append, takenBy_append,
      takenBy_tradeEvent, takenBy_of_inert inert_fillReport, htaken]
    omega

/-- The match loop throws only where an account has reserved less than nothing, and then its first
fill was inside the price band. -/
theorem Fails.first_inBand (h : Fails s t s') :
    (∃ next ∈ s.nextFill t, s.priceInBand t.symbol next.1.price) ∧
      ∃ a, s'.HasNegativeReserve t.symbol a := by
  induction h with
  | @abort s t fill book hnext hband hnot =>
    exact ⟨⟨_, hnext, hband⟩, hasNegativeReserve_of_not_hold
      (present_journaled t fill book (Or.inl rfl)) (present_journaled t fill book (Or.inr rfl)) hnot⟩
  | fill hnext hband _ _ ih => exact ⟨⟨_, hnext, hband⟩, ih.2⟩

end Fills

/-- The order trades its whole quantity, or expires and leaves the engine alone; no part of it
rests. -/
structure Taker.AllOrNothing (t : Taker) (s : MatchingEngine) (events : List Event)
    (s' : MatchingEngine) : Prop where
  traded : takenBy t.id events = t.remaining ∨
    events = [.orderExpired t.id t.symbol] ∧ s.LeftAlone s' ∧
      ∀ a, (s.account a).Agrees False (s'.account a)
  traceless : s'.Traceless t.id

/-- Where the book cannot fill the order, its account needs no top-up; where it can, the first
order that it meets is inside the price band or takes all of it. -/
def Taker.FillsOrDies (t : Taker) (s : MatchingEngine) : Prop :=
  if (s.bookFor t.symbol).executableQty t.side t.price < t.remaining then
    t.accountId = defaultAccountId →
      defaultLegacyCash ≤ (s.account t.accountId).cashBalance ∧
        defaultLegacyPosition ≤ (s.account t.accountId).position t.symbol
  else ∀ order ∈ ((s.bookFor t.symbol).sideOrders t.side.opposite).head?,
    s.priceInBand t.symbol order.price ∨ t.remaining ≤ available order

instance (t : Taker) (s : MatchingEngine) : Decidable (t.FillsOrDies s) := by
  unfold Taker.FillsOrDies
  infer_instance

section Entry
variable {s s' : MatchingEngine} {t : Taker} {a : AccountId} {symbol : Symbol} {side : Side}
  {price qty : ℤ} {events : List Event}

/-- A look at an account changes nothing exactly if there is nothing to top up. -/
theorem touchAccount_agrees_iff (s : MatchingEngine) (a : AccountId) (symbol : Symbol) :
    (∀ b, (s.account b).Agrees False ((s.touchAccount a symbol).account b)) ↔
      (a = defaultAccountId → defaultLegacyCash ≤ (s.account a).cashBalance ∧
        defaultLegacyPosition ≤ (s.account a).position symbol) := by
  have htop : a = defaultAccountId → (s.touchAccount a symbol).account a =
      { s.account a with
        cashBalance := max (s.account a).cashBalance defaultLegacyCash
        positionQtyBySymbol := (s.account a).positionQtyBySymbol.insert symbol
          (max ((s.account a).position symbol) defaultLegacyPosition) } := fun ha => by
    rw [touchAccount, account_updateAccount, if_pos rfl, if_pos ha]
  constructor
  · intro h ha
    have hagrees := h a
    rw [htop ha] at hagrees
    have hcash := hagrees.cash.resolve_right fun h => h.1
    have hposition := (hagrees.position symbol).resolve_right fun h => h.1
    unfold AccountSnapshot.position at hposition
    dsimp only at hcash hposition
    rw [Finmap.valueD_insert, if_pos rfl] at hposition
    exact ⟨max_eq_left_iff.mp hcash, max_eq_left_iff.mp hposition⟩
  · intro h b
    rw [touchAccount, account_updateAccount]
    split_ifs with hb ha
    · subst hb
      obtain ⟨hcash, hposition⟩ := h ha
      refine ⟨Or.inl (max_eq_left hcash), fun symbol' => Or.inl ?_, rfl, fun _ => rfl, rfl,
        fun _ => rfl, fun _ => rfl, rfl⟩
      unfold AccountSnapshot.position at hposition ⊢
      dsimp only
      rw [Finmap.valueD_insert]
      split_ifs with hsymbol
      · rw [hsymbol]
        exact max_eq_left hposition
      · rfl
    · exact .refl _ _
    · exact .refl _ _

/-- What a fill-or-kill order does that the book can fill. -/
theorem Matches.allOrNothing_iff {s₁ s₂ : MatchingEngine} {t' : Taker} {rested : List Event}
    (hs : s₁.Sound {}) (hadmits : s₁.Admits t) (hphase : ¬ s₁.inAuction t.symbol)
    (htif : t.tif = .fok) (htrace : s₁.Traceless t.id)
    (henough : ¬ (s₁.bookFor t.symbol).executableQty t.side t.price < t.remaining)
    (hmatches : Matches s₁ t events s₂ t') (hfinishes : Finishes s₂ t' rested s') :
    t.AllOrNothing s (events ++ rested) s' ↔
      ∀ order ∈ ((s₁.bookFor t.symbol).sideOrders t.side.opposite).head?,
        s₁.priceInBand t.symbol order.price ∨ t.remaining ≤ available order := by
  obtain ⟨hflight, hpos⟩ := hadmits.inFlight
  have hnarrows := hmatches.narrows hs
  have hb := hs.book t.symbol
  have hdone : t'.remaining ≤ 0 → rested = [] ∧ s'.Traceless t.id := fun hzero => by
    cases hfinishes with
    | done => exact ⟨rfl, hnarrows.traceless htrace⟩
    | rest hleft => omega
    | expire hleft => omega
  cases hnext : s₁.nextFill t with
  | none =>
    have hnone := (nextFill_eq_none hb).mp hnext
    omega
  | some next =>
    obtain ⟨fill, book⟩ := next
    obtain ⟨maker, rest, hfill, -⟩ := nextFill_some hb hnext
    rw [hfill.head]
    rcases hadmits.matches hb hphase hmatches with
      ⟨hin, hfillings⟩ | ⟨-, fill', book', hnext', hband, rfl, rfl, rfl⟩
    · have hband : s₁.priceInBand t.symbol maker.price := by
        rw [← hfill.toFillStep.price]
        by_contra hout
        exact hin ⟨hphase, _, hnext, hout⟩
      obtain ⟨htaken, hzero⟩ := hfillings.filled hs hpos.le (not_lt.mp henough)
      obtain ⟨rfl, hgone⟩ := hdone hzero.le
      rw [List.append_nil]
      refine iff_of_true ⟨Or.inl htaken, hgone⟩ fun order horder => ?_
      rw [← Option.some.inj horder]
      exact Or.inl hband
    · rw [hnext] at hnext'
      cases hnext'
      have hqty := hfill.toFillStep.fill_qty
      have hcondition : (∀ order ∈ some maker, s₁.priceInBand t.symbol order.price ∨
          t.remaining ≤ available order) ↔ t.remaining ≤ available maker := by
        rw [hfill.toFillStep.price] at hband
        simp [hband]
      rw [hcondition]
      have hleft : (t.after fill).remaining = t.remaining - fill.qty := rfl
      by_cases hall : t.remaining ≤ available maker
      · obtain ⟨rfl, hgone⟩ := hdone (by omega)
        refine iff_of_true ⟨Or.inl ?_, hgone⟩ hall
        rw [List.append_nil, ← List.singleton_append, takenBy_append, takenBy_tradeEvent,
          takenBy_of_inert (by simp [circuitBreakerEvents, Event.inert])]
        omega
      · refine iff_of_false (fun h => ?_) hall
        -- the order has a remainder, and only an order that may not rest would expire
        cases hfinishes with
        | rest =>
          have howner := h.traceless.owner
          rw [owners_rested, if_pos (show t.id = (t.after fill).id from rfl)] at howner
          cases howner
        | expire _ hioc =>
          have htif' : (t.after fill).tif = t.tif := rfl
          rw [htif', htif] at hioc
          cases hioc
        | done hzero => omega

/-- The entry of a fill-or-kill order that is not rejected. -/
theorem placeFillOrKill_outcome (hs : s.Sound {}) (htif : t.tif = .fok) (hid : t.id = s.nextOrderId)
    (hopen : ¬ s.inAuction t.symbol)
    (hvalid : s.validateEntry t.symbol t.price t.remaining t.visibility t.displayQty = none)
    (hrisk : (s.touchAccount t.accountId t.symbol).validateOrderRisk t.accountId t.symbol t.side
      t.price t.remaining none = none) :
    Outcome (placeVisibleOrderWithAccountAndId t.accountId t.symbol t.id t.side t.price t.remaining
      t.tif t.visibility t.displayQty) s.allocated
      (fun events s' => t.AllOrNothing s events s' ↔ t.FillsOrDies s)
      fun _ s' => t.FillsOrDies s ∧ ∃ b, s'.HasNegativeReserve t.symbol b := by
  set s₁ := s.allocated.touchAccount t.accountId t.symbol with hs₁
  have htouched : s.LeftAlone s₁ := (leftAlone_allocated s).trans (leftAlone_touchAccount _ _ _)
  have hsound : s₁.Sound {} := by
    have hallocate := hs.allocated
    exact (Narrows.of_frame hallocate (frame_touchAccount _ _ _) id).sound hallocate
  have htrace : s₁.Traceless t.id := by
    have hnext := hid ▸ hs.traceless_next
    have hallocated : s.allocated.Traceless t.id := ⟨hnext.rests, hnext.owner, hnext.unreserved⟩
    exact hallocated.of_frame (frame_touchAccount _ _ _) fun h => h
  have hadmits : s₁.Admits t :=
    ⟨hvalid, hrisk, (hid ▸ hs.free_next t.accountId t.symbol).of_touch⟩
  unfold placeVisibleOrderWithAccountAndId
  simp only [outcome_bind, outcome_get]
  rw [show s.allocated.validateEntry t.symbol t.price t.remaining t.visibility t.displayQty = none
    from hvalid]
  dsimp only
  rw [← hs₁, hadmits.risk]
  dsimp only
  rw [outcome_bind, outcome_set, if_neg (show ¬ s₁.inAuction t.symbol from hopen)]
  unfold Taker.FillsOrDies
  by_cases hshort : (s₁.bookFor t.symbol).executableQty t.side t.price < t.remaining
  · rw [if_pos ⟨htif, hshort⟩, outcome_pure,
      if_pos (show (s.bookFor t.symbol).executableQty t.side t.price < t.remaining from hshort),
      ← touchAccount_agrees_iff]
    have hpos := hadmits.inFlight.2
    constructor
    · rintro ⟨htraded | ⟨-, -, hagrees⟩, -⟩
      · rw [takenBy_of_inert (by simp [Event.inert])] at htraded
        omega
      · exact hagrees
    · exact fun hagrees => ⟨Or.inr ⟨rfl, htouched, hagrees⟩, htrace⟩
  · rw [if_neg fun h => hshort h.2, outcome_bind,
      if_neg (show ¬ (s.bookFor t.symbol).executableQty t.side t.price < t.remaining from hshort)]
    refine (matchLoop_matches (t := t) (hsound.book t.symbol) (Int.self_le_toNat _)).mono
      (fun r s₂ hmatches => ?_) fun e s₂ hfails => ?_
    · rw [outcome_bind]
      refine (finishEntry_finishes s₂ r.1).mono (fun rested s' hfinishes => ?_) fun _ _ h => h.elim
      have hiff := hmatches.allOrNothing_iff (s := s) hsound hadmits hopen htif htrace hshort hfinishes
      exact hiff
    · obtain ⟨⟨next, hnext, hband⟩, hnegative⟩ := hfails.first_inBand
      obtain ⟨maker, rest, hfill, -⟩ := nextFill_some (hsound.book t.symbol) hnext
      refine ⟨fun order horder => Or.inl ?_, hnegative⟩
      have hhead : some maker = some order := hfill.head.symm.trans horder
      rw [← Option.some.inj hhead, ← hfill.toFillStep.price]
      exact hband

/-- A fill-or-kill order in continuous trading is all or nothing exactly if it fills or dies. -/
theorem fillOrKill_iff (hreach : Reachable s) (hphase : s.tradingPhase symbol = .continuous)
    (hvalid : s.validateEntry symbol price qty .displayed 0 = none)
    (hrisk : (s.touchAccount a symbol).validateOrderRisk a symbol side price qty none = none) :
    let t := limitTaker a symbol s.nextOrderId side price qty .fok
    let entry := placeLimitOrderWithAccountAndId a symbol s.nextOrderId side price qty .fok
    (Outcome entry s.allocated (t.AllOrNothing s) (fun _ s' => ∃ b, s'.HasNegativeReserve symbol b) ↔
      t.FillsOrDies s) ∧
    ∀ ops, Run (fun _ s op => op.Solvent s) fresh ops s → t.Solvent s →
      (Outcome entry s.allocated (t.AllOrNothing s) (fun _ _ => False) ↔ t.FillsOrDies s) := by
  intro t entry
  have hopen : ¬ s.inAuction symbol := by
    rintro (h | h) <;> rw [hphase] at h <;> cases h
  have hentry : Outcome entry s.allocated (fun events s' => t.AllOrNothing s events s' ↔ t.FillsOrDies s)
      fun _ s' => t.FillsOrDies s ∧ ∃ b, s'.HasNegativeReserve symbol b :=
    placeFillOrKill_outcome (t := t) hreach.sound rfl rfl hopen hvalid hrisk
  refine ⟨?_, fun ops hrun hsolvent => ?_⟩
  · unfold Outcome at *
    cases hresult : entry s.allocated with
    | ok events s' =>
      rw [hresult] at hentry
      exact hentry
    | error e s' =>
      rw [hresult] at hentry
      exact iff_of_true hentry.2 hentry.1
  · have hreturns : Outcome entry s.allocated (fun _ _ => True) fun _ _ => False :=
      hrun.entry_never_throws (t := t) rfl hsolvent
    unfold Outcome at *
    cases hresult : entry s.allocated with
    | ok events s' =>
      rw [hresult] at hentry
      exact hentry
    | error e s' =>
      rw [hresult] at hreturns
      exact hreturns.elim

end Entry

/-- An offer of 3, an iceberg of 5 that shows 2, and a hidden offer of 4, before a price band. -/
def mixedOffers : List Op :=
  [.setAccountState 1 "X" 0 20, .setAccountState 2 "X" 5000 0,
    .placeLimitOrder 1 "X" .ask 100 3 .gtc, .placeIcebergOrder 1 "X" .ask 100 5 2,
    .placeHiddenOrder 1 "X" .ask 101 4, .setPriceBands "X" 100 200]

theorem fillOrKill_iff_mixedOffers :
    (limitTaker 2 "X" 4 .bid 101 12 .fok).FillsOrDies (fresh.applyAll mixedOffers) ∧
    Outcome (placeLimitOrderWithAccountAndId 2 "X" 4 .bid 101 12 .fok)
      (fresh.applyAll mixedOffers).allocated
      ((limitTaker 2 "X" 4 .bid 101 12 .fok).AllOrNothing (fresh.applyAll mixedOffers))
      fun _ _ => False := by
  have hcondition : (limitTaker 2 "X" 4 .bid 101 12 .fok).FillsOrDies (fresh.applyAll mixedOffers) := by
    decide +kernel
  have hsolvent := Run.ofOps (P := fun s op => op.Solvent s) mixedOffers (by decide +kernel)
  have hnext : (fresh.applyAll mixedOffers).nextOrderId = 4 := by decide +kernel
  have hiff := (@fillOrKill_iff (fresh.applyAll mixedOffers) 2 "X" .bid 101 12 (reachable_applyAll mixedOffers) (by decide +kernel) (by decide +kernel)
    (by decide +kernel)).2 _ hsolvent (by decide +kernel)
  rw [hnext] at hiff
  exact ⟨hcondition, hiff.mpr hcondition⟩

/-- Offers of 5 at 100 and at 115, and then a price band above the first. -/
def offerBelowBand : List Op :=
  [.setAccountState 1 "X" 0 10, .setAccountState 2 "X" 5000 0,
    .placeLimitOrder 1 "X" .ask 100 5 .gtc, .placeLimitOrder 1 "X" .ask 115 5 .gtc,
    .setPriceBands "X" 110 200]

/-- What the entry of an order takes and the record it leaves, unless it throws. -/
def entryLeaves (id : OrderId) (entry : Engine (List Event)) (s : MatchingEngine) :
    Option (ℤ × Option OrderOwnership) :=
  match entry s with
  | .ok events s' => some (takenBy id events, s'.orderOwnershipById.lookup id)
  | .error _ _ => none

/-- A bid for 8 trades 5 and rests with 3, in a run of solvent orders. -/
theorem not_allOrNothing_offerBelowBand :
    Run (fun _ s op => op.Solvent s) fresh (fresh.history offerBelowBand)
      (fresh.applyAll offerBelowBand) ∧
    (fresh.applyAll offerBelowBand).nextOrderId = 3 ∧
    (fresh.applyAll offerBelowBand).tradingPhase "X" = .continuous ∧
    (fresh.applyAll offerBelowBand).validateEntry "X" 120 8 .displayed 0 = none ∧
    ((fresh.applyAll offerBelowBand).touchAccount 2 "X").validateOrderRisk 2 "X" .bid 120 8 none =
      none ∧
    ¬ Outcome (placeLimitOrderWithAccountAndId 2 "X" 3 .bid 120 8 .fok)
      (fresh.applyAll offerBelowBand).allocated
      ((limitTaker 2 "X" 3 .bid 120 8 .fok).AllOrNothing (fresh.applyAll offerBelowBand))
      fun _ _ => True := by
  refine ⟨Run.ofOps offerBelowBand (by decide +kernel), by decide +kernel, by decide +kernel,
    by decide +kernel, by decide +kernel, fun h => ?_⟩
  have hevents : entryLeaves 3 (placeLimitOrderWithAccountAndId 2 "X" 3 .bid 120 8 .fok)
      (fresh.applyAll offerBelowBand).allocated =
        some (5, some ⟨2, "X", .bid, 120, 3, .displayed, 0⟩) := by decide +kernel
  unfold entryLeaves at hevents
  unfold Outcome at h
  cases hresult : placeLimitOrderWithAccountAndId 2 "X" 3 .bid 120 8 .fok
      (fresh.applyAll offerBelowBand).allocated with
  | ok events s' =>
    rw [hresult] at hevents h
    have howner : s'.orderOwnershipById.lookup 3 = none := h.traceless.owner
    rw [(Prod.mk.inj (Option.some.inj hevents)).2] at howner
    cases howner
  | error e s' =>
    rw [hresult] at hevents
    cases hevents

end Tes
