import Tes.Library.Lists
import Tes.Market.StopLifecycle

/-! Replacing a stop order, against cancelling it and placing a new one: which of them the engine
accepts, and the stops that are then pending. -/
namespace Tes
open MatchingEngine EStateM

namespace MatchingEngine

/-- What the ledger says of a replacement that fails the risk check. -/
def replaceStopReason : Option ℤ → String
  | some _ => "replace_stop_limit_rejected_risk_failure"
  | none => "replace_stop_rejected_risk_failure"

/-- A replacement up to the evaluation of the stops, and whether it is accepted. -/
def replaceStopEntry (accountId : AccountId) (id : OrderId) (stop : StopOrderState)
    (newStopPrice newQty : ℤ) (newLimitPrice : Option ℤ) : Engine (Bool × List Event) := do
  let s ← get
  let riskPrice := newLimitPrice.getD newStopPrice
  if ¬ isValidPrice newStopPrice ∨ ∃ limit ∈ newLimitPrice, ¬ isValidPrice limit then
    pure (false, [.orderRejected stop.side riskPrice newQty .invalidPrice stop.symbol])
  else if ¬ isValidQty newQty then
    pure (false, [.orderRejected stop.side riskPrice newQty .invalidQuantity stop.symbol])
  else
    match s.validateOrderRisk accountId stop.symbol stop.side riskPrice newQty none with
    | some failure => do
      set (s.appendLedgerEntry
        { accountId, symbol := stop.symbol, reason := replaceStopReason newLimitPrice,
          relatedOrderId := some id })
      pure (false, [.orderRejected stop.side riskPrice newQty failure stop.symbol])
    | none => do
      set (s.withReplacedStop id stop newStopPrice newQty newLimitPrice)
      pure (true, [.orderCanceled id stop.symbol,
        .stopOrderAccepted id stop.side newStopPrice newQty newLimitPrice stop.symbol])

/-- Where it is accepted, the stops are evaluated. -/
def evaluated (symbol : Symbol) (entry : Engine (Bool × List Event)) : Engine (List Event) := do
  let (accepted, events) ← entry
  if accepted then followEntry symbol (pure events) else pure events

section Entry
variable {s : MatchingEngine} {a : AccountId} {id : OrderId} {stop : StopOrderState}
  {newStopPrice newQty : ℤ}

theorem replaceStop_eq (newLimitPrice : Option ℤ) :
    replaceStop a id stop newStopPrice newQty newLimitPrice (replaceStopReason newLimitPrice) s =
      evaluated stop.symbol (replaceStopEntry a id stop newStopPrice newQty newLimitPrice) s := by
  refine eq_of_outcome fun Q E h => ?_
  unfold evaluated replaceStopEntry
  unfold replaceStop at h
  simp only [outcome_bind, outcome_get] at h ⊢
  split_ifs at h ⊢
  · exact h
  · cases hrisk : s.validateOrderRisk a stop.symbol stop.side (newLimitPrice.getD newStopPrice) newQty
        none with
    | some failure =>
      rw [hrisk] at h
      exact h
    | none =>
      rw [hrisk] at h
      exact h
  · exact h

theorem replaceStopLimitOrder_eq (hstop : s.stopOrdersById.lookup id = some stop) (limit : ℤ) :
    replaceStopLimitOrder stop.accountId id newStopPrice limit newQty s =
      evaluated stop.symbol
        (replaceStopEntry stop.accountId id stop newStopPrice newQty (some limit)) s := by
  rw [← replaceStop_eq]
  refine eq_of_outcome fun Q E h => ?_
  unfold replaceStopLimitOrder at h
  rw [outcome_bind, outcome_get, hstop] at h
  dsimp only at h
  rw [if_neg (not_not.mpr rfl)] at h
  exact h

theorem replaceStopOrder_eq (hstop : s.stopOrdersById.lookup id = some stop) :
    replaceStopOrder stop.accountId id newStopPrice newQty s =
      evaluated stop.symbol
        (replaceStopEntry stop.accountId id stop newStopPrice newQty stop.limitPrice) s := by
  refine eq_of_outcome fun Q E h => ?_
  unfold replaceStopOrder at h
  rw [outcome_bind, outcome_get, hstop] at h
  dsimp only at h
  rw [if_neg (not_not.mpr rfl)] at h
  cases hlimit : stop.limitPrice with
  | none =>
    rw [hlimit] at h
    unfold Outcome at h ⊢
    rwa [← replaceStop_eq]
  | some limit =>
    rw [hlimit] at h
    unfold Outcome at h ⊢
    rwa [← replaceStopLimitOrder_eq hstop]

/-- The state in which the engine evaluates the stops after a replacement that it accepts. -/
def replacement (s : MatchingEngine) (id : OrderId) (stop : StopOrderState) (newStopPrice newQty : ℤ)
    (newLimitPrice : Option ℤ) : Option MatchingEngine :=
  match replaceStopEntry stop.accountId id stop newStopPrice newQty newLimitPrice s with
  | .ok (true, _) s₁ => some s₁
  | _ => none

/-- The same of a new stop order that is placed right after the old one is cancelled. -/
def placement (s : MatchingEngine) (id : OrderId) (stop : StopOrderState) (newStopPrice newQty : ℤ)
    (newLimitPrice : Option ℤ) : Option MatchingEngine :=
  match MatchingEngine.cancel stop.accountId id s with
  | .ok _ s₁ =>
    match placeStopOrderWithAccountAndId stop.accountId stop.symbol s₁.nextOrderId stop.side
        newStopPrice newQty newLimitPrice s₁.allocated with
    | .ok events s₂ => if acceptedStops events = [] then none else some s₂
    | .error _ _ => none
  | .error _ _ => none

/-- The terms of a stop order are valid. -/
def ValidStopTerms (stopPrice qty : ℤ) (limitPrice : Option ℤ) : Prop :=
  isValidPrice stopPrice ∧ (∀ limit ∈ limitPrice, isValidPrice limit) ∧ isValidQty qty

instance (stopPrice qty : ℤ) (limitPrice : Option ℤ) :
    Decidable (ValidStopTerms stopPrice qty limitPrice) :=
  inferInstanceAs (Decidable (_ ∧ _ ∧ _))

/-- The state after the cancel of a stop order. -/
def canceledStop (s : MatchingEngine) (id : OrderId) (stop : StopOrderState) : MatchingEngine :=
  ((s.dropStop stop.symbol id).appendLedgerEntry
    { accountId := stop.accountId, symbol := stop.symbol, reason := "stop_order_canceled",
      relatedOrderId := some id }).trackEvents [.orderCanceled id stop.symbol]

/-- The state after a new stop order. -/
def placedStop (s : MatchingEngine) (stop : StopOrderState) : MatchingEngine :=
  ((s.touchAccount stop.accountId stop.symbol).addStop stop).appendLedgerEntry
    { accountId := stop.accountId, symbol := stop.symbol, reason := "stop_order_accepted",
      relatedOrderId := some stop.sequence }

/-- The state after the cancel and the new stop order. -/
def withPlacedStop (s : MatchingEngine) (id : OrderId) (stop : StopOrderState)
    (newStopPrice newQty : ℤ) (newLimitPrice : Option ℤ) : MatchingEngine :=
  (s.canceledStop id stop).allocated.placedStop
    { stop with
      stopPrice := newStopPrice, qty := newQty, limitPrice := newLimitPrice,
      sequence := s.nextOrderId }

theorem replaceStopEntry_outcome (newLimitPrice : Option ℤ) :
    Outcome (replaceStopEntry a id stop newStopPrice newQty newLimitPrice) s
      (fun r s₁ =>
        (r.1 = true ∧ ValidStopTerms newStopPrice newQty newLimitPrice ∧
          s.validateOrderRisk a stop.symbol stop.side (newLimitPrice.getD newStopPrice) newQty none =
            none ∧ s₁ = s.withReplacedStop id stop newStopPrice newQty newLimitPrice) ∨
        (r.1 = false ∧ ¬ (ValidStopTerms newStopPrice newQty newLimitPrice ∧
          s.validateOrderRisk a stop.symbol stop.side (newLimitPrice.getD newStopPrice) newQty none =
            none))) fun _ _ => False := by
  unfold replaceStopEntry ValidStopTerms
  simp only [outcome_bind, outcome_get]
  split_ifs with hprice hqty
  · apply Or.inr
    constructor
    · rfl
    · rintro ⟨⟨hstopPrice, hlimit, -⟩, -⟩
      rcases hprice with hprice | ⟨limit, hmem, hbad⟩
      · exact hprice hstopPrice
      · exact hbad (hlimit limit hmem)
  · push Not at hprice
    cases hrisk : s.validateOrderRisk a stop.symbol stop.side (newLimitPrice.getD newStopPrice)
        newQty none with
    | some failure =>
      rw [outcome_bind, outcome_set, outcome_pure]
      apply Or.inr
      constructor
      · rfl
      · rintro ⟨-, h⟩
        cases h
    | none =>
      rw [outcome_bind, outcome_set, outcome_pure]
      exact Or.inl ⟨rfl, ⟨hprice.1, hprice.2, hqty⟩, rfl, rfl⟩
  · apply Or.inr
    constructor
    · rfl
    · rintro ⟨⟨-, -, hvalid⟩, -⟩
      exact hqty hvalid

theorem replacement_eq (newLimitPrice : Option ℤ) :
    s.replacement id stop newStopPrice newQty newLimitPrice =
      if ValidStopTerms newStopPrice newQty newLimitPrice ∧ s.validateOrderRisk stop.accountId
          stop.symbol stop.side (newLimitPrice.getD newStopPrice) newQty none = none
      then some (s.withReplacedStop id stop newStopPrice newQty newLimitPrice) else none := by
  have hentry := @replaceStopEntry_outcome s stop.accountId id stop newStopPrice newQty newLimitPrice
  unfold replacement
  cases hresult : replaceStopEntry stop.accountId id stop newStopPrice newQty newLimitPrice
      s with
  | ok r s₁ =>
    obtain ⟨accepted, events⟩ := r
    rcases hentry.returns hresult with ⟨haccepted, hterms, hrisk, hstate⟩ | ⟨haccepted, hrejected⟩
    · dsimp only at haccepted
      rw [if_pos ⟨hterms, hrisk⟩, haccepted, hstate]
    · dsimp only at haccepted
      rw [if_neg hrejected, haccepted]
  | error e s₁ => exact (hentry.throws hresult).elim

theorem cancel_stop_eq (hstop : s.stopOrdersById.lookup id = some stop) :
    MatchingEngine.cancel stop.accountId id s =
      .ok [.orderCanceled id stop.symbol] (s.canceledStop id stop) := by
  have hcancel : Outcome (MatchingEngine.cancel stop.accountId id) s
      (fun events s₁ => events = [.orderCanceled id stop.symbol] ∧ s₁ = s.canceledStop id stop)
      fun _ _ => False := by
    unfold MatchingEngine.cancel
    rw [outcome_bind, outcome_get, hstop]
    dsimp only
    rw [if_neg (not_not.mpr rfl)]
    exact ⟨rfl, rfl⟩
  cases hresult : MatchingEngine.cancel stop.accountId id s with
  | ok events s₁ =>
    obtain ⟨hevents, hstate⟩ := hcancel.returns hresult
    rw [hevents, hstate]
  | error e s₁ => exact (hcancel.throws hresult).elim

theorem placeStop_outcome (limitPrice : Option ℤ) (symbol : Symbol) (side : Side)
    (stopPrice qty : ℤ) :
    Outcome (placeStopOrderWithAccountAndId a symbol id side stopPrice qty limitPrice) s
      (fun events s₁ =>
        (acceptedStops events ≠ [] ∧ ValidStopTerms stopPrice qty limitPrice ∧
          s.validateMarketControl symbol (limitPrice.getD stopPrice) = none ∧
          (s.touchAccount a symbol).validateOrderRisk a symbol side (limitPrice.getD stopPrice) qty
            none = none ∧
          s₁ = s.placedStop { accountId := a, symbol, side, stopPrice, qty, limitPrice,
                              sequence := id }) ∨
        (acceptedStops events = [] ∧ ¬ (ValidStopTerms stopPrice qty limitPrice ∧
          s.validateMarketControl symbol (limitPrice.getD stopPrice) = none ∧
          (s.touchAccount a symbol).validateOrderRisk a symbol side (limitPrice.getD stopPrice) qty
            none = none))) fun _ _ => False := by
  have hsame : ∀ price, (s.touchAccount a symbol).validateMarketControl symbol price =
      s.validateMarketControl symbol price := fun _ => rfl
  unfold placeStopOrderWithAccountAndId ValidStopTerms
  rw [outcome_bind, outcome_get]
  dsimp only
  split_ifs with hprice hqty
  · apply Or.inr
    constructor
    · rfl
    · rintro ⟨⟨hstopPrice, hlimit, -⟩, -⟩
      rcases hprice with hprice | ⟨limit, hmem, hbad⟩
      · exact hprice hstopPrice
      · exact hbad (hlimit limit hmem)
  · push Not at hprice
    rw [hsame]
    cases hcontrol : s.validateMarketControl symbol (limitPrice.getD stopPrice) with
    | some failure =>
      rw [outcome_bind, outcome_set, outcome_pure]
      apply Or.inr
      constructor
      · rfl
      · rintro ⟨-, h, -⟩
        cases h
    | none =>
      dsimp only
      cases hrisk : (s.touchAccount a symbol).validateOrderRisk a symbol side
          (limitPrice.getD stopPrice) qty none with
      | some failure =>
        rw [outcome_bind, outcome_set, outcome_pure]
        apply Or.inr
        constructor
        · rfl
        · rintro ⟨-, -, h⟩
          cases h
      | none =>
        rw [outcome_bind, outcome_set, outcome_pure]
        exact Or.inl ⟨List.cons_ne_nil _ _, ⟨hprice.1, hprice.2, hqty⟩, rfl, rfl, rfl⟩
  · apply Or.inr
    constructor
    · rfl
    · rintro ⟨⟨-, -, hvalid⟩, -⟩
      exact hqty hvalid

/-- The risk check of an order looks at accounts, marks, configurations and fees only. -/
theorem validateOrderRisk_congr {s₁ s₂ : MatchingEngine} (haccounts : s₁.accounts = s₂.accounts)
    (hmark : s₁.markPrice = s₂.markPrice)
    (hconfig : s₁.effectiveRiskConfig = s₂.effectiveRiskConfig) (hfees : s₁.feeModel = s₂.feeModel)
    (a : AccountId) (symbol : Symbol) (side : Side) (price qty : ℤ) :
    s₁.validateOrderRisk a symbol side price qty none =
      s₂.validateOrderRisk a symbol side price qty none := by
  have haccount : s₁.account = s₂.account := by
    funext b
    rw [MatchingEngine.account, haccounts, MatchingEngine.account]
  have hpower : s₁.accountBuyingPower = s₂.accountBuyingPower := by
    funext b
    unfold accountBuyingPower accountMarginSnapshot
    rw [haccounts, hmark, hconfig]
  unfold validateOrderRisk validateBuyRisk validateSellRisk shortMarginReserve
  rw [haccount, hpower, hconfig, hfees]
  rfl

theorem placement_eq (hstop : s.stopOrdersById.lookup id = some stop) (limitPrice : Option ℤ) :
    s.placement id stop newStopPrice newQty limitPrice =
      if ValidStopTerms newStopPrice newQty limitPrice ∧
          s.validateMarketControl stop.symbol (limitPrice.getD newStopPrice) = none ∧
          (s.touchAccount stop.accountId stop.symbol).validateOrderRisk stop.accountId stop.symbol
            stop.side (limitPrice.getD newStopPrice) newQty none = none
      then some (s.withPlacedStop id stop newStopPrice newQty limitPrice) else none := by
  have hplace := @placeStop_outcome (s.canceledStop id stop).allocated stop.accountId
    s.nextOrderId limitPrice stop.symbol stop.side newStopPrice newQty
  have hcontrol : (s.canceledStop id stop).allocated.validateMarketControl stop.symbol =
      s.validateMarketControl stop.symbol := by
    unfold validateMarketControl
    rfl
  have hrisk : ∀ price,
      ((s.canceledStop id stop).allocated.touchAccount stop.accountId stop.symbol).validateOrderRisk
        stop.accountId stop.symbol stop.side price newQty none =
      (s.touchAccount stop.accountId stop.symbol).validateOrderRisk stop.accountId stop.symbol
        stop.side price newQty none := by
    intro price
    apply validateOrderRisk_congr <;> rfl
  rw [hcontrol, hrisk] at hplace
  unfold placement
  rw [cancel_stop_eq hstop]
  dsimp only
  have hnext : (s.canceledStop id stop).nextOrderId = s.nextOrderId := rfl
  rw [hnext]
  cases hresult : placeStopOrderWithAccountAndId stop.accountId stop.symbol s.nextOrderId stop.side
      newStopPrice newQty limitPrice (s.canceledStop id stop).allocated with
  | ok events s₂ =>
    rcases hplace.returns hresult with ⟨haccepted, hpassed, hcontrols, hfunds, hstate⟩ |
      ⟨haccepted, hrejected⟩
    · dsimp only
      rw [if_neg haccepted, if_pos ⟨hpassed, hcontrols, hfunds⟩, hstate]
      rfl
    · dsimp only
      rw [if_pos haccepted, if_neg hrejected]
  | error e s₂ => exact (hplace.throws hresult).elim

/-- Order entry changes no account but account 0. -/
theorem accounts_touchAccount (ha : a ≠ defaultAccountId) (symbol : Symbol) :
    (s.touchAccount a symbol).accounts = s.accounts.insert a (s.account a) := by
  change s.accounts.insert a (if a = defaultAccountId then _ else s.account a) = _
  rw [if_neg ha]

theorem account_touchAccount (ha : a ≠ defaultAccountId) (symbol : Symbol) (b : AccountId) :
    (s.touchAccount a symbol).account b = s.account b := by
  unfold account
  rw [accounts_touchAccount ha, Finmap.valueD_insert]
  split_ifs with hb
  · rw [hb]
    rfl
  · rfl

theorem accountBuyingPower_touchAccount (ha : a ≠ defaultAccountId) (symbol : Symbol) :
    (s.touchAccount a symbol).accountBuyingPower a = s.accountBuyingPower a := by
  have hlookup : (s.touchAccount a symbol).accounts.lookup a = some (s.account a) := by
    rw [accounts_touchAccount ha]
    exact Finmap.lookup_insert _
  have hmark : (s.touchAccount a symbol).markPrice = s.markPrice := rfl
  have hconfig : (s.touchAccount a symbol).effectiveRiskConfig = s.effectiveRiskConfig := rfl
  unfold accountBuyingPower accountMarginSnapshot
  rw [hlookup, hmark, hconfig]
  cases hpresent : s.accounts.lookup a with
  | some account =>
    have haccount : s.account a = account := by
      unfold MatchingEngine.account Finmap.valueD
      rw [hpresent]
      rfl
    rw [haccount]
  | none =>
    -- An account that is not there has no buying power, nor has an empty one.
    have haccount : s.account a = {} := by
      unfold MatchingEngine.account Finmap.valueD
      rw [hpresent]
      rfl
    rw [haccount]
    dsimp only
    cases (s.effectiveRiskConfig a).mode with
    | cashOnly => simp
    | margin => simp [Finmap.total]

theorem validateOrderRisk_touchAccount (ha : a ≠ defaultAccountId) (symbol : Symbol) (side : Side)
    (price qty : ℤ) (replacing : Option OrderId) :
    (s.touchAccount a symbol).validateOrderRisk a symbol side price qty replacing =
      s.validateOrderRisk a symbol side price qty replacing := by
  unfold validateOrderRisk validateBuyRisk validateSellRisk
  rw [account_touchAccount ha, accountBuyingPower_touchAccount ha]
  rfl

end Entry

/-- Two states have the same stops, but for the id of one of them, and an evaluation finds the same
ones ready. -/
structure SameStops (s₁ s₂ : MatchingEngine) (id newId : OrderId) : Prop where
  renamed : ∃ stop, s₁.stopOrdersById.lookup id = some stop ∧
    s₂.stopOrdersById.lookup newId = some { stop with sequence := newId }
  left : s₁.stopOrdersById.lookup newId = none ∧ s₂.stopOrdersById.lookup id = none
  others : ∀ other, other ≠ id → other ≠ newId →
    s₁.stopOrdersById.lookup other = s₂.stopOrdersById.lookup other
  pending : ∀ symbol, ((s₁.pendingStopIds symbol).map fun other =>
    if other = id then newId else other).Perm (s₂.pendingStopIds symbol)
  trigger : ∀ symbol, s₁.triggerPrice symbol = s₂.triggerPrice symbol
  ready : ∀ symbol current, ((s₁.readyStops symbol current).map fun other =>
    if other = id then newId else other).Perm (s₂.readyStops symbol current)

/-- A stop is replaced where a new one in its place would be accepted, with the same pending stops
before they are evaluated. -/
structure ReplacesLikePlacing (s : MatchingEngine) (id : OrderId) (stop : StopOrderState)
    (newStopPrice newQty : ℤ) (newLimitPrice : Option ℤ) : Prop where
  accepted : (s.replacement id stop newStopPrice newQty newLimitPrice).isSome ↔
    (s.placement id stop newStopPrice newQty newLimitPrice).isSome
  pending : ∀ s₁ s₂, s.replacement id stop newStopPrice newQty newLimitPrice = some s₁ →
    s.placement id stop newStopPrice newQty newLimitPrice = some s₂ →
    SameStops s₁ s₂ id s.nextOrderId

/-- What a replacement does not check: no halt and no price band forbids what the risk check allows,
and account 0 needs no top-up for it. -/
structure NeedsNoControl (s : MatchingEngine) (stop : StopOrderState) (price qty : ℤ) : Prop where
  controls : s.validateOrderRisk stop.accountId stop.symbol stop.side price qty none = none →
    ¬ s.isHalted stop.symbol ∧ s.priceInBand stop.symbol price
  funded : stop.accountId = defaultAccountId → ¬ s.isHalted stop.symbol →
    s.priceInBand stop.symbol price →
    (s.validateOrderRisk stop.accountId stop.symbol stop.side price qty none = none ↔
      (s.touchAccount stop.accountId stop.symbol).validateOrderRisk stop.accountId stop.symbol
        stop.side price qty none = none)

section Replacement
variable {s : MatchingEngine} {id : OrderId} {stop : StopOrderState} {newStopPrice newQty : ℤ}
  {newLimitPrice : Option ℤ}

/-- Stops that are the same but for an id are ready at the same prices. -/
theorem ready_of_renamed {s₁ s₂ : MatchingEngine} {newId : OrderId} {symbol : Symbol} {current : ℤ}
    (hpending : ((s₁.pendingStopIds symbol).map fun other =>
      if other = id then newId else other).Perm (s₂.pendingStopIds symbol))
    (hsame : ∀ other ∈ s₁.pendingStopIds symbol,
      (∃ stop ∈ s₁.stopOrdersById.lookup other, stop.triggers current) ↔
        ∃ stop ∈ s₂.stopOrdersById.lookup (if other = id then newId else other),
          stop.triggers current) :
    ((s₁.readyStops symbol current).map fun other =>
      if other = id then newId else other).Perm (s₂.readyStops symbol current) := by
  unfold readyStops
  have hsorted := ((List.perm_insertionSort (· ≤ ·) ((s₁.pendingStopIds symbol).filter fun other =>
    ∃ stop ∈ s₁.stopOrdersById.lookup other, stop.triggers current))).map
      fun other => if other = id then newId else other
  have hfilter := hpending.filter fun other =>
    ∃ stop ∈ s₂.stopOrdersById.lookup other, stop.triggers current
  rw [List.filter_map] at hfilter
  have heq : (s₁.pendingStopIds symbol).filter ((fun other =>
      decide (∃ stop ∈ s₂.stopOrdersById.lookup other, stop.triggers current)) ∘
        fun other => if other = id then newId else other) =
      (s₁.pendingStopIds symbol).filter fun other =>
        ∃ stop ∈ s₁.stopOrdersById.lookup other, stop.triggers current := by
    apply List.filter_congr
    intro other hother
    exact decide_eq_decide.mpr (hsame other hother).symm
  rw [heq] at hfilter
  exact (hsorted.trans hfilter).trans (List.perm_insertionSort _ _).symm

/-- The pending ids after both are those before, the new one in the place of the old one. -/
theorem StopsSound.pending_withPlacedStop (hs : s.StopsSound)
    (hstop : s.stopOrdersById.lookup id = some stop) (symbol : Symbol) :
    ((s.pendingStopIds symbol).map fun other => if other = id then s.nextOrderId else other).Perm
      ((s.withPlacedStop id stop newStopPrice newQty newLimitPrice).pendingStopIds symbol) := by
  obtain ⟨-, hfiled⟩ := hs
  change ((s.pendingStopIds symbol).map _).Perm
    (Finmap.valueD (Finmap.insert stop.symbol
      (Finmap.valueD (s.pendingStopIdsBySymbol.insert stop.symbol
        ((s.pendingStopIds stop.symbol).filter fun other => other ≠ id)) stop.symbol [] ++
          [s.nextOrderId]) (s.pendingStopIdsBySymbol.insert stop.symbol
        ((s.pendingStopIds stop.symbol).filter fun other => other ≠ id))) symbol [])
  rw [Finmap.valueD_insert]
  split_ifs with hsymbol
  · subst hsymbol
    rw [Finmap.valueD_insert, if_pos rfl]
    exact Lists.perm_rename (hfiled.nodup _) ((hfiled.iff _ id).mpr ⟨stop, hstop, rfl⟩) _
  · rw [Finmap.valueD_insert, if_neg hsymbol]
    -- The stop is not among those of another symbol.
    have hsame : ∀ other ∈ s.pendingStopIds symbol,
        (if other = id then s.nextOrderId else other) = other := by
      intro other hother
      apply if_neg
      rintro rfl
      obtain ⟨stop', hstop', hsymbol'⟩ := (hfiled.iff symbol other).mp hother
      have heq : stop' = stop := Option.some_inj.mp (hstop'.symm.trans hstop)
      rw [heq] at hsymbol'
      exact hsymbol hsymbol'.symm
    rw [List.map_congr_left hsame, List.map_id']
    exact .refl _

/-- The stops after both are those before, with the new terms. -/
theorem StopsSound.sameStops (hs : s.StopsSound) (hstop : s.stopOrdersById.lookup id = some stop)
    (hlimit : (newLimitPrice.orElse fun _ => stop.limitPrice) = newLimitPrice) :
    SameStops (s.withReplacedStop id stop newStopPrice newQty newLimitPrice)
      (s.withPlacedStop id stop newStopPrice newQty newLimitPrice) id s.nextOrderId := by
  have hne : ∀ other stop', s.stopOrdersById.lookup other = some stop' → other ≠ s.nextOrderId :=
    fun other stop' hstop' => Nat.ne_of_lt (hs.1.lt_next hstop')
  have hfresh : s.stopOrdersById.lookup s.nextOrderId = none := hs.1.lookup_next
  have hothers : ∀ other, other ≠ id → other ≠ s.nextOrderId →
      (s.withReplacedStop id stop newStopPrice newQty newLimitPrice).stopOrdersById.lookup other =
        (s.withPlacedStop id stop newStopPrice newQty newLimitPrice).stopOrdersById.lookup other := by
    intro other hother hnew
    change (s.stopOrdersById.insert id _).lookup other =
      ((s.stopOrdersById.erase id).insert s.nextOrderId _).lookup other
    rw [Finmap.lookup_insert_of_ne _ hother, Finmap.lookup_insert_of_ne _ hnew,
      Finmap.lookup_erase_ne hother]
  have hold : (s.withReplacedStop id stop newStopPrice newQty newLimitPrice).stopOrdersById.lookup
      id = some { stop with
        stopPrice := newStopPrice, qty := newQty
        limitPrice := newLimitPrice.orElse fun _ => stop.limitPrice } := Finmap.lookup_insert _
  have hnew : (s.withPlacedStop id stop newStopPrice newQty newLimitPrice).stopOrdersById.lookup
      s.nextOrderId = some { stop with
        stopPrice := newStopPrice, qty := newQty, limitPrice := newLimitPrice,
        sequence := s.nextOrderId } := Finmap.lookup_insert _
  rw [hlimit] at hold
  constructor
  · exact ⟨_, hold, hnew⟩
  · constructor
    · change (s.stopOrdersById.insert id _).lookup s.nextOrderId = none
      rw [Finmap.lookup_insert_of_ne _ (hne id stop hstop).symm, hfresh]
    · change ((s.stopOrdersById.erase id).insert s.nextOrderId _).lookup id = none
      rw [Finmap.lookup_insert_of_ne _ (hne id stop hstop), Finmap.lookup_erase]
  · exact hothers
  · exact hs.pending_withPlacedStop hstop
  · exact fun _ => rfl
  · intro symbol current
    have hpending : (((s.withReplacedStop id stop newStopPrice newQty
        newLimitPrice).pendingStopIds symbol).map fun other =>
          if other = id then s.nextOrderId else other).Perm
        ((s.withPlacedStop id stop newStopPrice newQty newLimitPrice).pendingStopIds symbol) :=
      hs.pending_withPlacedStop hstop symbol
    apply ready_of_renamed hpending
    intro other hother
    by_cases heq : other = id
    · rw [if_pos heq, heq, hold, hnew]
      simp only [Option.mem_some_iff, exists_eq_left']
      exact Iff.rfl
    · obtain ⟨stop', hstop', -⟩ := (hs.2.iff symbol other).mp hother
      rw [if_neg heq, hothers other heq (hne other stop' hstop')]

theorem replacement_isSome : (s.replacement id stop newStopPrice newQty newLimitPrice).isSome ↔
    ValidStopTerms newStopPrice newQty newLimitPrice ∧ s.validateOrderRisk stop.accountId
      stop.symbol stop.side (newLimitPrice.getD newStopPrice) newQty none = none := by
  rw [replacement_eq]
  split_ifs with h
  · exact iff_of_true rfl h
  · exact iff_of_false Bool.false_ne_true h

theorem placement_isSome (hstop : s.stopOrdersById.lookup id = some stop) :
    (s.placement id stop newStopPrice newQty newLimitPrice).isSome ↔
      ValidStopTerms newStopPrice newQty newLimitPrice ∧
        (¬ s.isHalted stop.symbol ∧
          s.priceInBand stop.symbol (newLimitPrice.getD newStopPrice)) ∧
        (s.touchAccount stop.accountId stop.symbol).validateOrderRisk stop.accountId stop.symbol
          stop.side (newLimitPrice.getD newStopPrice) newQty none = none := by
  rw [← validateMarketControl_eq_none, placement_eq hstop]
  split_ifs with h
  · exact iff_of_true rfl h
  · exact iff_of_false Bool.false_ne_true h

theorem StopsSound.replacesLikePlacing_iff (hs : s.StopsSound)
    (hstop : s.stopOrdersById.lookup id = some stop)
    (hlimit : (newLimitPrice.orElse fun _ => stop.limitPrice) = newLimitPrice) :
    ReplacesLikePlacing s id stop newStopPrice newQty newLimitPrice ↔
      (ValidStopTerms newStopPrice newQty newLimitPrice →
        NeedsNoControl s stop (newLimitPrice.getD newStopPrice) newQty) := by
  constructor
  · intro h hterms
    have haccepted := h.accepted
    rw [replacement_isSome, placement_isSome hstop] at haccepted
    constructor
    · intro hrisk
      exact (haccepted.mp ⟨hterms, hrisk⟩).2.1
    · intro _ hhalted hband
      constructor
      · intro hrisk
        exact (haccepted.mp ⟨hterms, hrisk⟩).2.2
      · intro hfunds
        exact (haccepted.mpr ⟨hterms, ⟨hhalted, hband⟩, hfunds⟩).2
  · intro hneeds
    constructor
    · rw [replacement_isSome, placement_isSome hstop]
      refine and_congr_right fun hterms => ?_
      obtain ⟨hcontrols, hfunded⟩ := hneeds hterms
      by_cases haccount : stop.accountId = defaultAccountId
      · constructor
        · intro hrisk
          obtain ⟨hhalted, hband⟩ := hcontrols hrisk
          exact ⟨⟨hhalted, hband⟩, (hfunded haccount hhalted hband).mp hrisk⟩
        · rintro ⟨⟨hhalted, hband⟩, hfunds⟩
          exact (hfunded haccount hhalted hband).mpr hfunds
      · rw [validateOrderRisk_touchAccount haccount]
        exact ⟨fun hrisk => ⟨hcontrols hrisk, hrisk⟩, fun hboth => hboth.2⟩
    · intro s₁ s₂ h₁ h₂
      rw [replacement_eq] at h₁
      rw [placement_eq hstop] at h₂
      split_ifs at h₁
      split_ifs at h₂
      cases h₁
      cases h₂
      exact hs.sameStops hstop hlimit

end Replacement
end MatchingEngine

def oneStop : List Op := [.setAccountState 1 "X" 10000 100, .placeStopOrder 1 "X" .bid 105 2]

def haltedStop : List Op := oneStop ++ [.haltSymbol "X" "news"]

def stopToBuy : StopOrderState := ⟨1, "X", .bid, 105, 2, none, 1⟩

end Tes
