import Tes.Library.WrapAround
import Tes.Ledger.Holdings
import Tes.Ledger.Funding

/-! Order entry in the 64-bit amounts the engine computes with, and when the orders it
accepts have amounts that are exact. -/
namespace Tes
open WrapAround Rounding MatchingEngine

/-- What a 64-bit signed amount holds of an integer. -/
def int64 (x : ℤ) : ℤ := wrap 64 x

namespace FeeModel

def feeForNotional64 (model : FeeModel) (notional : ℤ) (maker : Bool) : ℤ :=
  let rate := if maker then model.makerFeeRate else model.takerFeeRate
  int64 (int64 (llround ((notional : ℚ) * rate)) + model.fixedFee.getD 0)

def limitFee64 (model : FeeModel) (notional : ℤ) : ℤ :=
  max (model.feeForNotional64 notional false) (model.feeForNotional64 notional true)

end FeeModel

namespace MatchingEngine

def buyReserve64 (s : MatchingEngine) (accountId : AccountId) (symbol : Symbol)
    (price qty fee : ℤ) : ℤ :=
  let notional := int64 (int64 (price * qty) + fee)
  let config := s.effectiveRiskConfig accountId
  match config.mode with
  | .cashOnly => notional
  | .margin => int64 ⌈(notional : ℚ) * config.initialMarginRequirementFor symbol⌉

def shortMarginReserve64 (s : MatchingEngine) (accountId : AccountId) (symbol : Symbol)
    (price shortQty : ℤ) : ℤ :=
  if shortQty ≤ 0 then 0
  else int64 ⌈(int64 (price * shortQty) : ℚ) *
    (s.effectiveRiskConfig accountId).shortMarginRequirementFor symbol⌉

/-- The exposure, the equity and the margin of the positions are sums of floating-point
numbers; only the two reserves are added as integers. -/
def accountBuyingPower64 (s : MatchingEngine) (accountId : AccountId) : ℚ :=
  match s.accounts.lookup accountId with
  | none => 0
  | some account =>
    let config := s.effectiveRiskConfig accountId
    let snapshot := s.accountMarginSnapshot accountId
    let reserved : ℚ := int64 (account.reservedCash + account.reservedShortMargin)
    let marginUsed := snapshot.marginUsed -
      ((account.reservedCash : ℚ) + account.reservedShortMargin) + reserved
    match config.mode with
    | .cashOnly => max 0 (int64 (account.cashBalance - account.reservedCash) : ℚ)
    | .margin =>
      let leverageCap := max 0
        (snapshot.equity * config.maxLeverage - snapshot.grossExposure - reserved)
      let marginCap := max 0 (snapshot.equity - marginUsed)
      min leverageCap (marginCap / max (1 / 1000000) config.initialMarginRequirement)

def validateBuyRisk64 (s : MatchingEngine) (accountId : AccountId) (symbol : Symbol)
    (price qty reservedCash reservedShort : ℤ) : Option RejectReason :=
  let account := s.account accountId
  let config := s.effectiveRiskConfig accountId
  let limitNotional := int64 (price * qty)
  let limitFee := s.feeModel.limitFee64 limitNotional
  match config.mode with
  | .cashOnly =>
    if int64 (account.cashBalance - reservedCash) < int64 (limitNotional + limitFee) then
      some .insufficientCash
    else none
  | .margin =>
    let released := int64 (int64 (int64 (account.reservedCash - reservedCash) +
      account.reservedShortMargin) - reservedShort)
    let power := s.accountBuyingPower64 accountId +
      (released : ℚ) / config.initialMarginRequirementFor symbol
    if power + 1 / 1000000000 < (int64 (limitNotional + limitFee) : ℚ) then
      some .insufficientBuyingPower
    else none

def validateSellRisk64 (s : MatchingEngine) (accountId : AccountId) (symbol : Symbol)
    (price qty reservedCash reservedShort reservedQty : ℤ) : Option RejectReason :=
  let account := s.account accountId
  let config := s.effectiveRiskConfig accountId
  let position := account.position symbol
  if qty ≤ int64 (position - reservedQty) then none
  else if ¬ config.allowShortSelling then some .insufficientPosition
  else
    let shortQty := int64 (qty - max 0 (int64 (position - reservedQty)))
    match config.mode with
    | .cashOnly =>
      if int64 (int64 (account.cashBalance - reservedCash) - reservedShort) <
          s.shortMarginReserve64 accountId symbol price shortQty then
        some .marginRequirementFailed
      else none
    | .margin =>
      let released := int64 (account.reservedShortMargin - reservedShort)
      let power := s.accountBuyingPower64 accountId +
        (released : ℚ) / config.shortMarginRequirementFor symbol
      if power + 1 / 1000000000 < (int64 (price * shortQty) : ℚ) then
        some .marginRequirementFailed
      else none

def validateOrderRisk64 (s : MatchingEngine) (accountId : AccountId) (symbol : Symbol)
    (side : Side) (price qty : ℤ) (replacingOrderId : Option OrderId) : Option RejectReason :=
  let account := s.account accountId
  let less (amount : ℤ) (m : Finmap fun _ : OrderId => ℤ) : ℤ :=
    replacingOrderId.elim amount fun id => int64 (amount - m.valueD id 0)
  let reservedCash := less account.reservedCash s.reservedCashByOrderId
  let reservedShort := less account.reservedShortMargin s.reservedShortMarginByOrderId
  let reservedQty := less (account.reservedQty symbol) s.reservedQtyByOrderId
  match side with
  | .bid => s.validateBuyRisk64 accountId symbol price qty reservedCash reservedShort
  | .ask => s.validateSellRisk64 accountId symbol price qty reservedCash reservedShort reservedQty

/-- Why a limit, hidden or iceberg order is rejected. -/
def orderRejection64 (s : MatchingEngine) (accountId : AccountId) (symbol : Symbol) (side : Side)
    (price qty : ℤ) (visibility : OrderVisibility) (displayQty : ℤ) : Option RejectReason :=
  match s.validateEntry symbol price qty visibility displayQty with
  | some failure => some failure
  | none =>
    (s.touchAccount accountId symbol).validateOrderRisk64 accountId symbol side price qty none

/-- Why a stop or stop-limit order is rejected. -/
def stopRejection64 (s : MatchingEngine) (accountId : AccountId) (symbol : Symbol) (side : Side)
    (stopPrice qty : ℤ) (limitPrice : Option ℤ) : Option RejectReason :=
  let riskPrice := limitPrice.getD stopPrice
  if ¬ isValidPrice stopPrice ∨ ∃ limit ∈ limitPrice, ¬ isValidPrice limit then some .invalidPrice
  else if ¬ isValidQty qty then some .invalidQuantity
  else
    let s := s.touchAccount accountId symbol
    match s.validateMarketControl symbol riskPrice with
    | some failure => some failure
    | none => s.validateOrderRisk64 accountId symbol side riskPrice qty none

/-- The reserved cash of the account once a bid remainder rests. -/
def reservedCashAfter64 (s : MatchingEngine) (accountId : AccountId) (symbol : Symbol)
    (price remaining : ℤ) : ℤ :=
  int64 ((s.account accountId).reservedCash + s.buyReserve64 accountId symbol price remaining
    (s.feeModel.limitFee64 (int64 (price * remaining))))

/-- The same with exact amounts. -/
def reservedCashAfter (s : MatchingEngine) (accountId : AccountId) (symbol : Symbol)
    (price remaining : ℤ) : ℤ :=
  (s.account accountId).reservedCash + s.buyReserve accountId symbol price remaining
    (s.feeModel.limitFee (price * remaining))

end MatchingEngine

theorem int64_eq {x : ℤ} (h : Fits 64 x) : int64 x = x := wrap_eq h

theorem fits_of_nonneg {x : ℤ} (hx : 0 ≤ x) (hbound : x < 2 ^ 63) : Fits 64 x := by
  constructor <;> omega

namespace FeeModel

variable {model : FeeModel} {m n : ℤ} {maker : Bool}

theorem Valid.variableFee_nonneg (h : model.Valid) (hn : 0 ≤ n) (maker : Bool) :
    0 ≤ llround ((n : ℚ) * if maker then model.makerFeeRate else model.takerFeeRate) := by
  have hcast : (0 : ℚ) ≤ n := by exact_mod_cast hn
  apply llround_nonneg
  apply mul_nonneg hcast
  cases maker with
  | false => exact h.taker
  | true => exact h.maker

theorem Valid.fixedFee_nonneg (h : model.Valid) : 0 ≤ model.fixedFee.getD 0 := by
  cases hfixed : model.fixedFee with
  | none => exact le_rfl
  | some fee => exact h.fixed fee hfixed

theorem feeForNotional_le_limitFee (model : FeeModel) (n : ℤ) (maker : Bool) :
    model.feeForNotional n maker ≤ model.limitFee n := by
  cases maker with
  | false => exact le_max_left _ _
  | true => exact le_max_right _ _

/-- A fee whose exact value is an amount is computed exactly: both of its parts are. -/
theorem Valid.feeForNotional64_eq (h : model.Valid) (hn : 0 ≤ n)
    (hbound : model.feeForNotional n maker < 2 ^ 63) :
    model.feeForNotional64 n maker = model.feeForNotional n maker := by
  have hvariable := h.variableFee_nonneg hn maker
  have hfixed := h.fixedFee_nonneg
  unfold feeForNotional at hbound
  unfold feeForNotional64 feeForNotional
  dsimp only at hbound ⊢
  rw [int64_eq (fits_of_nonneg hvariable (by omega)),
    int64_eq (fits_of_nonneg (by omega) hbound)]

theorem Valid.limitFee64_eq (h : model.Valid) (hn : 0 ≤ n) (hbound : model.limitFee n < 2 ^ 63) :
    model.limitFee64 n = model.limitFee n := by
  have htaker := model.feeForNotional_le_limitFee n false
  have hmaker := model.feeForNotional_le_limitFee n true
  rw [limitFee64, h.feeForNotional64_eq hn (by omega), h.feeForNotional64_eq hn (by omega),
    limitFee]

theorem Valid.feeForNotional_mono (h : model.Valid) (hm : 0 ≤ m) (hmn : m ≤ n) (maker : Bool) :
    model.feeForNotional m maker ≤ model.feeForNotional n maker := by
  have hrate : (0 : ℚ) ≤ if maker then model.makerFeeRate else model.takerFeeRate := by
    cases maker with
    | false => exact h.taker
    | true => exact h.maker
  have hm' : (0 : ℚ) ≤ m := by exact_mod_cast hm
  have hmn' : (m : ℚ) ≤ n := by exact_mod_cast hmn
  have hrounded := llround_mono (mul_nonneg hm' hrate) (mul_le_mul_of_nonneg_right hmn' hrate)
  unfold feeForNotional
  dsimp only
  omega

theorem Valid.limitFee_mono (h : model.Valid) (hm : 0 ≤ m) (hmn : m ≤ n) :
    model.limitFee m ≤ model.limitFee n := by
  apply max_le
  · apply (h.feeForNotional_mono hm hmn false).trans
    exact model.feeForNotional_le_limitFee n false
  · apply (h.feeForNotional_mono hm hmn true).trans
    exact model.feeForNotional_le_limitFee n true

end FeeModel

namespace MatchingEngine

variable {s : MatchingEngine} {a : AccountId} {symbol : Symbol} {side : Side} {price qty : ℤ}

/-- The largest amounts that an order of this price and quantity makes the engine compute. -/
structure OrderBounded (s : MatchingEngine) (a : AccountId) (symbol : Symbol) (side : Side)
    (price qty : ℤ) : Prop where
  charged : price * qty + s.feeModel.limitFee (price * qty) < 2 ^ 63
  reserved : side = .bid → -2 ^ 63 ≤ s.reservedCashAfter a symbol price qty ∧
    s.reservedCashAfter a symbol price qty < 2 ^ 63

/-- The amounts of an accepted order are the exact ones: its notional, the notional with its
fee, what the account has reserved once any remainder rests, and the cash the check is about. -/
structure OrderExact (s : MatchingEngine) (a : AccountId) (symbol : Symbol) (side : Side)
    (price qty : ℤ) : Prop where
  notional : int64 (price * qty) = price * qty
  charged : int64 (int64 (price * qty) + s.feeModel.limitFee64 (int64 (price * qty))) =
    price * qty + s.feeModel.limitFee (price * qty)
  reserved : side = .bid → ∀ remaining, 0 < remaining → remaining ≤ qty →
    s.reservedCashAfter64 a symbol price remaining = s.reservedCashAfter a symbol price remaining
  covered : side = .bid → (s.effectiveRiskConfig a).mode = .cashOnly →
    0 ≤ (s.account a).reservedCash →
      Fits 64 ((s.account a).cashBalance - (s.account a).reservedCash) →
        price * qty ≤ (s.account a).cashBalance

/-- A part of an order is charged no more than the order. -/
theorem charged_mono (hfees : s.feeModel.Valid) (hprice : 0 ≤ price) {remaining : ℤ}
    (hpos : 0 < remaining) (hle : remaining ≤ qty) :
    0 ≤ price * remaining ∧ 0 ≤ s.feeModel.limitFee (price * remaining) ∧
      price * remaining + s.feeModel.limitFee (price * remaining) ≤
        price * qty + s.feeModel.limitFee (price * qty) := by
  have hnotional : 0 ≤ price * remaining := mul_nonneg hprice hpos.le
  have hmono : price * remaining ≤ price * qty := mul_le_mul_of_nonneg_left hle hprice
  have hfee := hfees.limitFee_mono hnotional hmono
  exact ⟨hnotional, hfees.limitFee_nonneg hnotional, by omega⟩

theorem OrderBounded.charged64_eq (h : s.OrderBounded a symbol side price qty)
    (hfees : s.feeModel.Valid) (hprice : 0 ≤ price) {remaining : ℤ} (hpos : 0 < remaining)
    (hle : remaining ≤ qty) :
    int64 (price * remaining) = price * remaining ∧
      s.feeModel.limitFee64 (price * remaining) = s.feeModel.limitFee (price * remaining) ∧
        int64 (price * remaining + s.feeModel.limitFee (price * remaining)) =
          price * remaining + s.feeModel.limitFee (price * remaining) := by
  obtain ⟨hnotional, hfee, hmono⟩ := charged_mono hfees hprice hpos hle
  have hcharged := h.charged
  refine ⟨int64_eq (fits_of_nonneg hnotional (by omega)),
    hfees.limitFee64_eq hnotional (by omega), int64_eq (fits_of_nonneg (by omega) (by omega))⟩

/-- What a part of an order reserves lies between nothing and what the order reserves. -/
theorem buyReserve_between (hfees : s.feeModel.Valid) (hprice : 0 ≤ price) {remaining : ℤ}
    (hpos : 0 < remaining) (hle : remaining ≤ qty) :
    let part := s.buyReserve a symbol price remaining (s.feeModel.limitFee (price * remaining))
    let whole := s.buyReserve a symbol price qty (s.feeModel.limitFee (price * qty))
    0 ≤ part ∧ part ≤ whole ∨ whole ≤ part ∧ part ≤ 0 := by
  obtain ⟨hnotional, hfee, hmono⟩ := charged_mono hfees hprice hpos hle
  unfold buyReserve
  dsimp only
  cases hmode : (s.effectiveRiskConfig a).mode with
  | cashOnly =>
    dsimp only
    omega
  | margin =>
    dsimp only
    have hcharged : (0 : ℚ) ≤
        (price * remaining + s.feeModel.limitFee (price * remaining) : ℤ) := by
      exact_mod_cast (by omega)
    have hle' : ((price * remaining + s.feeModel.limitFee (price * remaining) : ℤ) : ℚ) ≤
        (price * qty + s.feeModel.limitFee (price * qty) : ℤ) := by
      exact_mod_cast hmono
    -- a requirement of one symbol may have any sign
    rcases le_total 0 ((s.effectiveRiskConfig a).initialMarginRequirementFor symbol) with
      hrate | hrate
    · apply Or.inl
      constructor
      · exact Int.ceil_nonneg (mul_nonneg hcharged hrate)
      · exact Int.ceil_le_ceil (mul_le_mul_of_nonneg_right hle' hrate)
    · apply Or.inr
      constructor
      · exact Int.ceil_le_ceil (mul_le_mul_of_nonpos_right hle' hrate)
      · apply Int.ceil_le.mpr
        exact_mod_cast mul_nonpos_of_nonneg_of_nonpos hcharged hrate

theorem OrderBounded.reservedCashAfter64_eq (h : s.OrderBounded a symbol side price qty)
    (hfees : s.feeModel.Valid) (hreserved : Fits 64 (s.account a).reservedCash)
    (hprice : 0 ≤ price) (hside : side = .bid) {remaining : ℤ} (hpos : 0 < remaining)
    (hle : remaining ≤ qty) :
    s.reservedCashAfter64 a symbol price remaining =
      s.reservedCashAfter a symbol price remaining := by
  obtain ⟨hnotional, hfee, hcharged⟩ := h.charged64_eq hfees hprice hpos hle
  obtain ⟨hlow, hhigh⟩ := h.reserved hside
  have hwhole : Fits 64 (s.reservedCashAfter a symbol price qty) := by
    constructor <;> omega
  have hpart : Fits 64 (s.reservedCashAfter a symbol price remaining) :=
    hreserved.of_abs_le hwhole (buyReserve_between hfees hprice hpos hle)
  unfold reservedCashAfter64 buyReserve64
  rw [hnotional, hfee, hcharged]
  unfold reservedCashAfter buyReserve at hpart ⊢
  dsimp only at hpart ⊢
  cases hmode : (s.effectiveRiskConfig a).mode with
  | cashOnly =>
    rw [hmode] at hpart
    exact int64_eq hpart
  | margin =>
    rw [hmode] at hpart
    -- the sum wraps whether or not the reserve has
    exact (wrap_add_wrap 64 _ _).trans (int64_eq hpart)

/-- A purchase that passes the check of a cash-only account is covered by its cash. -/
theorem OrderBounded.covered (h : s.OrderBounded a symbol side price qty) (hfees : s.feeModel.Valid)
    (hprice : 0 ≤ price) (hqty : 0 < qty) (hside : side = .bid)
    (hmode : (s.effectiveRiskConfig a).mode = .cashOnly)
    (hreserved : 0 ≤ (s.account a).reservedCash)
    (hcash : Fits 64 ((s.account a).cashBalance - (s.account a).reservedCash))
    (haccepted : s.validateOrderRisk64 a symbol side price qty none = none) :
    price * qty ≤ (s.account a).cashBalance := by
  obtain ⟨hnotional, hfee, hcharged⟩ := h.charged64_eq hfees hprice hqty le_rfl
  obtain ⟨-, hfeeNonneg, -⟩ := charged_mono hfees hprice hqty le_rfl
  subst hside
  unfold validateOrderRisk64 validateBuyRisk64 at haccepted
  simp only [Option.elim_none, hmode, hnotional, hfee, hcharged, int64_eq hcash] at haccepted
  split_ifs at haccepted
  omega

theorem orderExact_iff (hfees : s.feeModel.Valid) (hreserved : Fits 64 (s.account a).reservedCash)
    (hprice : 0 ≤ price) (hqty : 0 < qty)
    (haccepted : s.validateOrderRisk64 a symbol side price qty none = none) :
    s.OrderExact a symbol side price qty ↔ s.OrderBounded a symbol side price qty := by
  constructor
  · intro h
    have hcharged := h.charged
    have hfits : Fits 64 (price * qty + s.feeModel.limitFee (price * qty)) :=
      hcharged ▸ fits_wrap (by decide) _
    constructor
    · have hhigh := hfits.2
      omega
    · intro hside
      have hwhole : Fits 64 (s.reservedCashAfter a symbol price qty) :=
        h.reserved hside qty hqty le_rfl ▸ fits_wrap (by decide) _
      obtain ⟨hlow, hhigh⟩ := hwhole
      constructor <;> omega
  · intro h
    obtain ⟨hnotional, hfee, hcharged⟩ := h.charged64_eq hfees hprice hqty le_rfl
    exact
      { notional := hnotional
        charged := by rw [hnotional, hfee, hcharged]
        reserved := fun hside remaining hpos hle =>
          h.reservedCashAfter64_eq hfees hreserved hprice hside hpos hle
        covered := fun hside hmode hnonneg hcash =>
          h.covered hfees hprice hqty hside hmode hnonneg hcash haccepted }

/-- The quantity of the order, and the sums over what the account has and holds that its risk
check makes, are 64-bit amounts. -/
structure AccountFits (s : MatchingEngine) (a : AccountId) (symbol : Symbol) (price qty : ℤ) :
    Prop where
  order : Fits 64 qty
  held : Fits 64 (s.account a).reservedShortMargin
  reserved : Fits 64 ((s.account a).reservedCash + (s.account a).reservedShortMargin)
  free : Fits 64 ((s.account a).cashBalance - (s.account a).reservedCash)
  collateral : Fits 64 ((s.account a).cashBalance - (s.account a).reservedCash -
    (s.account a).reservedShortMargin)
  available : Fits 64 ((s.account a).position symbol - (s.account a).reservedQty symbol)
  shortMargin : Fits 64 (s.shortMarginReserve a symbol price
    (qty - max 0 ((s.account a).position symbol - (s.account a).reservedQty symbol)))

theorem AccountFits.accountBuyingPower64_eq (h : s.AccountFits a symbol price qty) :
    s.accountBuyingPower64 a = s.accountBuyingPower a := by
  have hreserved := h.reserved
  have hfree := h.free
  unfold account Finmap.valueD at hreserved hfree
  unfold accountBuyingPower64 accountBuyingPower accountMarginSnapshot
  cases haccount : s.accounts.lookup a with
  | none => rfl
  | some account =>
    rw [haccount] at hreserved hfree
    dsimp only [Option.getD_some] at hreserved hfree ⊢
    rw [int64_eq hreserved, int64_eq hfree]
    cases (s.effectiveRiskConfig a).mode with
    | cashOnly => rfl
    | margin =>
      push_cast
      rw [sub_add_cancel]

/-- What is sold short of an order is a part of it. -/
theorem OrderBounded.short64_eq (h : s.OrderBounded a symbol side price qty)
    (hfees : s.feeModel.Valid) (hprice : 0 ≤ price) {shortQty : ℤ} (hpos : 0 < shortQty)
    (hle : shortQty ≤ qty) (hqty : Fits 64 qty)
    (hmargin : Fits 64 (s.shortMarginReserve a symbol price shortQty)) :
    int64 shortQty = shortQty ∧ int64 (price * shortQty) = price * shortQty ∧
      s.shortMarginReserve64 a symbol price shortQty =
        s.shortMarginReserve a symbol price shortQty := by
  obtain ⟨hsold, -, -⟩ := h.charged64_eq hfees hprice hpos hle
  have hcount := (fits_zero 64).between hqty hpos.le hle
  refine ⟨int64_eq hcount, hsold, ?_⟩
  unfold shortMarginReserve64
  rw [hsold]
  unfold shortMarginReserve at hmargin ⊢
  rw [if_neg (by omega)] at hmargin ⊢
  rw [if_neg (by omega), int64_eq hmargin]

/-- Where no amount leaves its range, the check is the exact one. -/
theorem validateOrderRisk64_eq (hfees : s.feeModel.Valid) (hprice : 0 ≤ price) (hqty : 0 < qty)
    (hbounded : s.OrderBounded a symbol side price qty) (hfits : s.AccountFits a symbol price qty) :
    s.validateOrderRisk64 a symbol side price qty none =
      s.validateOrderRisk a symbol side price qty none := by
  obtain ⟨hnotional, hfee, hcharged⟩ := hbounded.charged64_eq hfees hprice hqty le_rfl
  have hpower := hfits.accountBuyingPower64_eq
  have hzero : int64 0 = 0 := int64_eq (fits_zero 64)
  unfold validateOrderRisk64 validateOrderRisk
  simp only [Option.elim_none, sub_zero]
  cases side with
  | bid =>
    unfold validateBuyRisk64 validateBuyRisk
    dsimp only
    cases (s.effectiveRiskConfig a).mode with
    | cashOnly => simp only [hnotional, hfee, hcharged, int64_eq hfits.free]
    | margin =>
      simp only [hnotional, hfee, hcharged, hpower, sub_self, hzero, zero_add,
        int64_eq hfits.held, Int.cast_zero]
  | ask =>
    unfold validateSellRisk64 validateSellRisk
    simp only [hpower, int64_eq hfits.available, int64_eq hfits.free, int64_eq hfits.collateral,
      sub_self, hzero]
    by_cases henough : qty ≤ (s.account a).position symbol - (s.account a).reservedQty symbol
    · rw [if_pos henough, if_pos henough]
    · rw [if_neg henough, if_neg henough]
      obtain ⟨hcount, hsold, hreserve⟩ := hbounded.short64_eq hfees hprice (by omega) (by omega)
        hfits.order hfits.shortMargin
      cases (s.effectiveRiskConfig a).mode with
      | cashOnly => simp only [hcount, hreserve]
      | margin => simp only [hcount, hsold]

theorem orderRejection64_none {visibility : OrderVisibility} {displayQty : ℤ}
    (h : s.orderRejection64 a symbol side price qty visibility displayQty = none) :
    isValidPrice price ∧ isValidQty qty ∧
      (s.touchAccount a symbol).validateOrderRisk64 a symbol side price qty none = none := by
  unfold orderRejection64 at h
  cases hentry : s.validateEntry symbol price qty visibility displayQty with
  | some failure =>
    rw [hentry] at h
    cases h
  | none =>
    rw [hentry] at h
    unfold validateEntry at hentry
    split_ifs at hentry with hprice hqty
    exact ⟨hprice, hqty, h⟩

theorem stopRejection64_none {stopPrice : ℤ} {limitPrice : Option ℤ}
    (h : s.stopRejection64 a symbol side stopPrice qty limitPrice = none) :
    isValidPrice (limitPrice.getD stopPrice) ∧ isValidQty qty ∧
      (s.touchAccount a symbol).validateOrderRisk64 a symbol side (limitPrice.getD stopPrice) qty
        none = none := by
  unfold stopRejection64 at h
  dsimp only at h
  split_ifs at h with hprice hqty
  rw [not_or, not_not] at hprice
  have hvalid : isValidPrice (limitPrice.getD stopPrice) := by
    cases limitPrice with
    | none => exact hprice.1
    | some limit =>
      by_contra hbad
      exact hprice.2 ⟨limit, rfl, hbad⟩
  cases hcontrol : (s.touchAccount a symbol).validateMarketControl symbol
      (limitPrice.getD stopPrice) with
  | some failure =>
    rw [hcontrol] at h
    cases h
  | none =>
    rw [hcontrol] at h
    exact ⟨hvalid, hqty, h⟩

end MatchingEngine

/-- An account with a little cash. -/
def smallAccount : MatchingEngine := fresh.applyAll [.setAccountState 1 "X" 1000 0]

end Tes
