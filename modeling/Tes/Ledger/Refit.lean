import Tes.Ledger.Undo

/-! The risk check of a replacement once the original is gone: what an account can still buy or
sell without the order, told in the state before the cancel. -/
namespace Tes
open OrderBook
namespace MatchingEngine

/-- The engine with the order out of its book. -/
def without (s : MatchingEngine) (symbol : Symbol) (id : OrderId) : MatchingEngine :=
  s.setBook symbol ((s.bookFor symbol).cancel id).2

/-- The margin cap of the margin snapshot, before it is cut off at zero. -/
def marginRoom (s : MatchingEngine) (a : AccountId) : ℚ :=
  (s.accountMarginSnapshot a).equity - (s.accountMarginSnapshot a).marginUsed

/-- The cash and the margin that are reserved for the order. -/
def ownReserve (s : MatchingEngine) (id : OrderId) : ℤ :=
  s.reserveOf .cash id + s.reserveOf .shortMargin id

/-- The buying power of the account without the order: the marks are those of the book without
it, and its reserves are free. -/
def powerWithout (s : MatchingEngine) (a : AccountId) (symbol : Symbol) (id : OrderId) : ℚ :=
  min (max 0 ((s.without symbol id).leverageRoom a + s.ownReserve id))
    (max 0 ((s.without symbol id).marginRoom a + s.ownReserve id) /
      max (1 / 1000000) (s.effectiveRiskConfig a).initialMarginRequirement)

/-- The account's cash without what is reserved for other orders of one kind. -/
def cashWithout (s : MatchingEngine) (a : AccountId) (id : OrderId) : ℤ :=
  (s.account a).cashBalance - ((s.account a).reservedCash - s.reserveOf .cash id)

/-- The account's position without what is reserved for its other orders. -/
def positionWithout (s : MatchingEngine) (a : AccountId) (symbol : Symbol) (id : OrderId) : ℤ :=
  (s.account a).position symbol - ((s.account a).reservedQty symbol - s.reserveOf .qty id)

/-- An order of the account fits beside its other orders. -/
def FitsWithout (s : MatchingEngine) (a : AccountId) (symbol : Symbol) (id : OrderId) (side : Side)
    (price qty : ℤ) : Prop :=
  match side, (s.effectiveRiskConfig a).mode with
  | .bid, .cashOnly => price * qty + s.feeModel.limitFee (price * qty) ≤ s.cashWithout a id
  | .bid, .margin => ((price * qty + s.feeModel.limitFee (price * qty) : ℤ) : ℚ) ≤
      s.powerWithout a symbol id + 1 / 1000000000
  | .ask, .cashOnly => s.positionWithout a symbol id < qty →
      s.shortMarginReserve a symbol price (qty - max 0 (s.positionWithout a symbol id)) ≤
        s.cashWithout a id - ((s.account a).reservedShortMargin - s.reserveOf .shortMargin id)
  | .ask, .margin => s.positionWithout a symbol id < qty →
      ((price * (qty - max 0 (s.positionWithout a symbol id)) : ℤ) : ℚ) ≤
        s.powerWithout a symbol id + 1 / 1000000000

instance (s : MatchingEngine) (a : AccountId) (symbol : Symbol) (id : OrderId) (side : Side)
    (price qty : ℤ) : Decidable (s.FitsWithout a symbol id side price qty) := by
  unfold FitsWithout
  split <;> infer_instance

/-- The order of the account is gone, and its reserves are free. -/
structure Freed (s s' : MatchingEngine) (a : AccountId) (symbol : Symbol) (id : OrderId) : Prop where
  present : s'.accounts.lookup a ≠ none
  holdings : (s.account a).SameHoldings (s'.account a)
  reserved : ∀ kind, (s'.account a).reserved symbol kind =
    (s.account a).reserved symbol kind - s.reserveOf kind id
  marks : ∀ symbol', s'.markPrice symbol' = (s.without symbol id).markPrice symbol'
  feeModel : s'.feeModel = s.feeModel
  riskConfigs : s'.riskConfigs = s.riskConfigs

section Power
variable {s s' : MatchingEngine} {a : AccountId} {symbol : Symbol} {id : OrderId} {side : Side}
  {price qty : ℤ}

theorem marginUsed_eq (s : MatchingEngine) (a : AccountId) :
    (s.accountMarginSnapshot a).marginUsed =
      ((s.account a).positionQtyBySymbol.total fun symbol (qty : ℤ) =>
        |(qty : ℚ)| * (s.markPrice symbol).getD ((s.account a).averageCost symbol) *
          if qty < 0 then (s.effectiveRiskConfig a).shortMarginRequirementFor symbol
          else (s.effectiveRiskConfig a).initialMarginRequirementFor symbol) +
        s.marginReserved a := by
  unfold marginReserved accountMarginSnapshot account Finmap.valueD
  cases s.accounts.lookup a with
  | none => simp
  | some account => simp

theorem effectiveRiskConfig_congr (h : s'.riskConfigs = s.riskConfigs) (a : AccountId) :
    s'.effectiveRiskConfig a = s.effectiveRiskConfig a := by
  rw [effectiveRiskConfig, effectiveRiskConfig, h]

theorem buyingPower_eq (hpresent : s.accounts.lookup a ≠ none)
    (hmargin : (s.effectiveRiskConfig a).mode = .margin) :
    s.accountBuyingPower a = min (max 0 (s.leverageRoom a))
      (max 0 (s.marginRoom a) /
        max (1 / 1000000) (s.effectiveRiskConfig a).initialMarginRequirement) := by
  obtain ⟨account, haccount⟩ := Option.ne_none_iff_exists'.mp hpresent
  have hrecord : s.account a = account := by
    unfold MatchingEngine.account Finmap.valueD
    rw [haccount]
    rfl
  unfold leverageRoom marginRoom marginReserved accountBuyingPower accountMarginSnapshot
  rw [haccount, hrecord]
  dsimp only
  rw [hmargin]
  push_cast
  rfl

theorem Freed.sameMarks (h : s.Freed s' a symbol id) : (s.without symbol id).SameMarks a s' :=
  fun symbol' _ => h.marks symbol'

theorem Freed.marginReserved (h : s.Freed s' a symbol id) :
    s'.marginReserved a = s.marginReserved a - s.ownReserve id := by
  have hcash : (s'.account a).reservedCash = (s.account a).reservedCash - s.reserveOf .cash id :=
    h.reserved .cash
  have hshort : (s'.account a).reservedShortMargin =
      (s.account a).reservedShortMargin - s.reserveOf .shortMargin id := h.reserved .shortMargin
  unfold MatchingEngine.marginReserved ownReserve
  omega

theorem Freed.leverageRoom (h : s.Freed s' a symbol id) :
    s'.leverageRoom a = (s.without symbol id).leverageRoom a + s.ownReserve id := by
  have hreserved := h.marginReserved
  have hgross := grossExposure_of_same (s := s.without symbol id) h.holdings h.sameMarks
  have hequity := equity_of_same (s := s.without symbol id) h.holdings h.sameMarks
  have hbefore : (s.without symbol id).marginReserved a = s.marginReserved a := rfl
  have hconfig : (s.without symbol id).effectiveRiskConfig a = s.effectiveRiskConfig a := rfl
  unfold MatchingEngine.leverageRoom
  rw [hgross, hequity, hreserved, hbefore, effectiveRiskConfig_congr h.riskConfigs, hconfig]
  push_cast
  ring

theorem Freed.marginRoom (h : s.Freed s' a symbol id) :
    s'.marginRoom a = (s.without symbol id).marginRoom a + s.ownReserve id := by
  have hreserved := h.marginReserved
  have hequity := equity_of_same (s := s.without symbol id) h.holdings h.sameMarks
  have hbefore : (s.without symbol id).marginReserved a = s.marginReserved a := rfl
  have hconfig : (s.without symbol id).effectiveRiskConfig a = s.effectiveRiskConfig a := rfl
  have hused := total_marked (s := s.without symbol id) (a := a)
    (g := fun symbol qty mark => |(qty : ℚ)| * mark *
      if qty < 0 then (s.effectiveRiskConfig a).shortMarginRequirementFor symbol
      else (s.effectiveRiskConfig a).initialMarginRequirementFor symbol) (by simp) h.holdings h.sameMarks
  unfold MatchingEngine.marginRoom
  rw [marginUsed_eq, marginUsed_eq, hequity, hreserved, hbefore,
    effectiveRiskConfig_congr h.riskConfigs, hconfig, hused]
  push_cast
  ring

theorem Freed.buyingPower (h : s.Freed s' a symbol id)
    (hmargin : (s.effectiveRiskConfig a).mode = .margin) :
    s'.accountBuyingPower a = s.powerWithout a symbol id := by
  have hconfig := effectiveRiskConfig_congr h.riskConfigs a
  rw [buyingPower_eq h.present (hconfig ▸ hmargin), h.leverageRoom, h.marginRoom, hconfig]
  rfl

/-- A new order passes the risk check without the old one exactly if it fits beside the rest. -/
theorem Freed.risk_iff (h : s.Freed s' a symbol id)
    (hshort : side = .ask → s.positionWithout a symbol id < qty →
      (s.effectiveRiskConfig a).allowShortSelling) :
    s'.validateOrderRisk a symbol side price qty none = none ↔
      s.FitsWithout a symbol id side price qty := by
  have hconfig := effectiveRiskConfig_congr h.riskConfigs a
  have hcash : (s'.account a).cashBalance - (s'.account a).reservedCash = s.cashWithout a id := by
    have hreserved : (s'.account a).reservedCash = _ := h.reserved .cash
    rw [h.holdings.cash, hreserved]
    rfl
  have hposition : (s'.account a).position symbol - (s'.account a).reservedQty symbol =
      s.positionWithout a symbol id := by
    have hreserved : (s'.account a).reservedQty symbol = _ := h.reserved .qty
    rw [h.holdings.position, hreserved]
    rfl
  unfold validateOrderRisk FitsWithout
  simp only [Option.elim_none, sub_zero]
  cases side with
  | bid =>
    unfold validateBuyRisk
    simp only [hconfig, h.feeModel, hcash]
    cases hmode : (s.effectiveRiskConfig a).mode with
    | cashOnly => simp
    | margin => simp [h.buyingPower hmode]
  | ask =>
    have hreserved : (s'.account a).reservedShortMargin =
        (s.account a).reservedShortMargin - s.reserveOf .shortMargin id := h.reserved .shortMargin
    have hreserve : ∀ shortQty, s'.shortMarginReserve a symbol price shortQty =
        s.shortMarginReserve a symbol price shortQty := fun shortQty => by
      rw [shortMarginReserve, shortMarginReserve, hconfig]
    unfold validateSellRisk
    simp only [hconfig, hcash, hposition, hreserve]
    by_cases hlong : qty ≤ s.positionWithout a symbol id
    · rw [if_pos hlong]
      refine iff_of_true rfl ?_
      cases (s.effectiveRiskConfig a).mode <;> exact fun hlt => absurd hlong (not_le.mpr hlt)
    · have hlt := not_le.mp hlong
      rw [if_neg hlong, if_neg (not_not.mpr (hshort rfl hlt))]
      cases hmode : (s.effectiveRiskConfig a).mode with
      | cashOnly =>
        rw [hreserved]
        simp [hlt]
      | margin => simp [hlt, h.buyingPower hmode]

end Power

section Touch
variable {s s' : MatchingEngine} {a : AccountId} {symbol : Symbol}

theorem sameHoldings_touchAccount (h : (s.account a).SameHoldings (s'.account a)) :
    ((s.touchAccount a symbol).account a).SameHoldings ((s'.touchAccount a symbol).account a) := by
  rw [touchAccount, account_updateAccount, if_pos rfl, touchAccount, account_updateAccount, if_pos rfl]
  split_ifs
  · refine ⟨?_, fun symbol' => ?_, h.averageCost, h.realizedBySymbol, h.realized⟩
    · dsimp only
      rw [h.cash]
    · have hposition := h.position
      unfold AccountSnapshot.position at *
      dsimp only
      rw [Finmap.valueD_insert, Finmap.valueD_insert, hposition, hposition]
  · exact h

theorem markPrice_congr {symbol : Symbol} (hbook : s'.bookFor symbol = s.bookFor symbol)
    (hmark : s'.latestMarkBySymbol = s.latestMarkBySymbol) : s'.markPrice symbol = s.markPrice symbol := by
  rw [markPrice, markPrice, hbook, hmark]

theorem positionWithout_touchAccount (s : MatchingEngine) (a : AccountId) (symbol : Symbol)
    (id : OrderId) :
    s.positionWithout a symbol id ≤ (s.touchAccount a symbol).positionWithout a symbol id := by
  have hreserved : ((s.touchAccount a symbol).account a).reservedQty symbol =
      (s.account a).reservedQty symbol := reserved_touchAccount s a a symbol symbol .qty
  have hentry : (s.touchAccount a symbol).reserveOf .qty id = s.reserveOf .qty id := rfl
  have hposition : (s.account a).position symbol ≤
      ((s.touchAccount a symbol).account a).position symbol := by
    rw [touchAccount, account_updateAccount, if_pos rfl]
    split_ifs
    · unfold AccountSnapshot.position
      dsimp only
      rw [Finmap.valueD_insert, if_pos rfl]
      exact le_max_left _ _
    · exact le_rfl
  unfold positionWithout
  omega

/-- A sale beyond the position passes the first check only where the account may sell short. -/
theorem allowShort_of_risk {id : OrderId} {side : Side} {price qty : ℤ}
    (hrisk : s.validateOrderRisk a symbol side price qty (some id) = none) (hside : side = .ask)
    (hlt : (s.touchAccount a symbol).positionWithout a symbol id < qty) :
    (s.effectiveRiskConfig a).allowShortSelling := by
  have hle := positionWithout_touchAccount s a symbol id
  have hposition : (s.account a).position symbol -
      ((s.account a).reservedQty symbol - s.reservedQtyByOrderId.valueD id 0) =
        s.positionWithout a symbol id := rfl
  subst hside
  unfold validateOrderRisk validateSellRisk at hrisk
  simp only [Option.elim_some, hposition] at hrisk
  rw [if_neg (by omega)] at hrisk
  by_contra hno
  rw [if_pos hno] at hrisk
  cases hrisk

/-- Once the order is gone, the second check passes exactly if the new one fits beside the rest. -/
theorem Freed.refit_iff {id : OrderId} {side : Side} {price qty : ℤ}
    (h : (s.touchAccount a symbol).Freed s' a symbol id)
    (hrisk : s.validateOrderRisk a symbol side price qty (some id) = none) :
    s'.validateOrderRisk a symbol side price qty none = none ↔
      (s.touchAccount a symbol).FitsWithout a symbol id side price qty := by
  have hconfig : (s.touchAccount a symbol).effectiveRiskConfig a = s.effectiveRiskConfig a :=
    effectiveRiskConfig_congr rfl a
  refine h.risk_iff fun hside hlt => ?_
  rw [hconfig]
  exact allowShort_of_risk hrisk hside hlt

/-- A cancel frees the order's reserves and takes it out of the book. -/
theorem freed_cancelResting (hs : s.Sound {}) {id : OrderId} {owner : OrderOwnership}
    (howner : s.orderOwnershipById.lookup id = some owner) (hrests : s.Rests owner.symbol id)
    (hjournal : s'.unjournaled =
      (s.cancelResting owner.accountId owner.symbol id).unjournaled) :
    (s.touchAccount owner.accountId owner.symbol).Freed
      (s'.touchAccount owner.accountId owner.symbol) owner.accountId owner.symbol id := by
  have hcancelled := cancelResting_cancelled hs howner hrests
  have hstill := still_journal hjournal
  have hfee := feeModel_of_frame (frame_cancelResting s owner.accountId owner.symbol id)
  have hconfigs := riskConfigs_of_frame (frame_cancelResting s owner.accountId owner.symbol id)
  refine ⟨?_, ?_, fun kind => ?_, fun symbol' => ?_, ?_, ?_⟩
  · rw [touchAccount, updateAccount, Finmap.lookup_insert]
    exact Option.some_ne_none _
  · exact sameHoldings_touchAccount ((hcancelled.holdings.trans hstill.holdings) _)
  · rw [reserved_touchAccount, reserved_touchAccount, hstill.reserved, (hcancelled.shifts kind).reserved,
      if_pos ⟨rfl, fun _ => rfl⟩]
    cases kind <;> rfl
  · have hbook : s'.bookFor symbol' = (s.without owner.symbol id).bookFor symbol' := by
      rw [bookFor_of_frame (frame_of_unjournaled hjournal), bookFor_cancelResting, without,
        bookFor_setBook]
    refine markPrice_congr hbook ?_
    exact (congrArg (fun s => s.latestMarkBySymbol) hjournal).trans (marks_releaseAll _ _ _ _)
  · exact (feeModel_of_frame (frame_of_unjournaled hjournal)).trans hfee
  · exact (riskConfigs_of_frame (frame_of_unjournaled hjournal)).trans hconfigs

end Touch
end MatchingEngine
end Tes
