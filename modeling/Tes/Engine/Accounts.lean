import Tes.Engine.State

/-! Fees, position accounting, marks and the risk check of an order. -/
namespace Tes
open Rounding

def FeeModel.feeForNotional (model : FeeModel) (notional : ℤ) (maker : Bool) : ℤ :=
  let rate := if maker then model.makerFeeRate else model.takerFeeRate
  llround ((notional : ℚ) * rate) + model.fixedFee.getD 0

/-- The larger of the fees an order pays as taker and as maker. -/
def FeeModel.limitFee (model : FeeModel) (notional : ℤ) : ℤ :=
  max (model.feeForNotional notional false) (model.feeForNotional notional true)

namespace AccountRiskConfig

def initialMarginRequirementFor (config : AccountRiskConfig) (symbol : Symbol) : ℚ :=
  config.initialMarginRequirementBySymbol.valueD symbol config.initialMarginRequirement

def maintenanceMarginRequirementFor (config : AccountRiskConfig) (symbol : Symbol) : ℚ :=
  config.maintenanceMarginRequirementBySymbol.valueD symbol config.maintenanceMarginRequirement

def shortMarginRequirementFor (config : AccountRiskConfig) (symbol : Symbol) : ℚ :=
  config.shortMarginRequirementBySymbol.valueD symbol config.shortMarginRequirement

end AccountRiskConfig

/-! Position accounting: close what the trade closes, open or add with the rest. -/

/-- Position, average cost, profit realized so far and quantity still to account for. -/
structure PositionUpdate where
  position : ℤ
  averageCost : ℚ
  tradePnl : ℚ
  remaining : ℤ
  deriving DecidableEq, Repr

namespace PositionUpdate

/-- The part of a trade that reduces a position of the other sign. -/
def close (side : Side) (price : ℤ) (u : PositionUpdate) : PositionUpdate :=
  match side with
  | .bid =>
    if u.position < 0 then
      let coverQty := min u.remaining (-u.position)
      { position := u.position + coverQty
        averageCost := if u.position + coverQty = 0 then 0 else u.averageCost
        tradePnl := u.tradePnl + (u.averageCost - price) * coverQty
        remaining := u.remaining - coverQty }
    else u
  | .ask =>
    if 0 < u.position then
      let sellQty := min u.remaining u.position
      { position := u.position - sellQty
        averageCost := if u.position - sellQty = 0 then 0 else u.averageCost
        tradePnl := u.tradePnl + (price - u.averageCost) * sellQty
        remaining := u.remaining - sellQty }
    else u

/-- The size the average cost of an addition is divided by. -/
def openedSize (side : Side) (u : PositionUpdate) : ℤ :=
  match side with
  | .bid => u.position + u.remaining
  | .ask => -(u.position - u.remaining)

/-- The part of a trade that opens a position or adds to it. -/
def extend (side : Side) (price : ℤ) (u : PositionUpdate) : PositionUpdate :=
  if 0 < u.remaining then
    match side with
    | .bid =>
      let previousLong := max 0 u.position
      { u with
        position := u.position + u.remaining
        averageCost := (u.averageCost * previousLong + price * u.remaining) / openedSize .bid u }
    | .ask =>
      let previousShort := if u.position < 0 then -u.position else 0
      { u with
        position := u.position - u.remaining
        averageCost := (u.averageCost * previousShort + price * u.remaining) / openedSize .ask u }
  else u

end PositionUpdate

namespace AccountSnapshot

def positionUpdate (account : AccountSnapshot) (symbol : Symbol) (side : Side)
    (price qty : ℤ) : PositionUpdate :=
  ((PositionUpdate.mk (account.position symbol) (account.averageCost symbol) 0 qty).close
    side price).extend side price

def applyPositionAccounting (account : AccountSnapshot) (symbol : Symbol) (side : Side)
    (price qty fee : ℤ) : AccountSnapshot :=
  let u := account.positionUpdate symbol side price qty
  { account with
    positionQtyBySymbol := account.positionQtyBySymbol.insert symbol u.position
    averageCostBySymbol := account.averageCostBySymbol.insert symbol u.averageCost
    realizedPnlBySymbol := account.realizedPnlBySymbol.insert symbol
      (account.realizedPnlOf symbol + u.tradePnl - fee)
    realizedPnl := account.realizedPnl + u.tradePnl - fee }

/-- Pay for a purchase or collect for a sale, fee included, and account for the position. -/
def settle (account : AccountSnapshot) (symbol : Symbol) (side : Side) (price qty fee : ℤ) :
    AccountSnapshot :=
  let paid : AccountSnapshot :=
    { account with
      cashBalance := match side with
        | .bid => account.cashBalance - (price * qty + fee)
        | .ask => account.cashBalance + (price * qty - fee) }
  paid.applyPositionAccounting symbol side price qty fee

end AccountSnapshot

namespace MatchingEngine

def feeForNotional (s : MatchingEngine) (notional : ℤ) (maker : Bool) : ℤ :=
  s.feeModel.feeForNotional notional maker

def effectiveRiskConfig (s : MatchingEngine) (accountId : AccountId) : AccountRiskConfig :=
  s.riskConfigs.valueD accountId {}

def markPrice (s : MatchingEngine) (symbol : Symbol) : Option ℚ :=
  match (s.bookFor symbol).bestBid, (s.bookFor symbol).bestAsk with
  | some bid, some ask => some (((bid : ℚ) + ask) / 2)
  | _, _ => s.latestMarkBySymbol.lookup symbol

def performanceSnapshot (s : MatchingEngine) (accountId : AccountId) : PerformanceSnapshot :=
  match s.accounts.lookup accountId with
  | none => {}
  | some account =>
    let unrealized (symbol : Symbol) (qty : ℤ) : ℚ :=
      (s.markPrice symbol).elim 0 fun mark => (mark - account.averageCost symbol) * qty
    { cashBalance := account.cashBalance
      reservedCash := account.reservedCash
      positionQtyBySymbol := account.positionQtyBySymbol
      averageCostBySymbol := account.averageCostBySymbol
      realizedPnl := account.realizedPnl
      realizedPnlBySymbol := account.realizedPnlBySymbol
      unrealizedPnlBySymbol := account.positionQtyBySymbol.mapWithKey unrealized
      unrealizedPnl := account.positionQtyBySymbol.total unrealized
      totalEquity := account.cashBalance +
        account.positionQtyBySymbol.total fun symbol (qty : ℤ) =>
          (s.markPrice symbol).elim 0 fun mark => mark * qty }

def accountMarginSnapshot (s : MatchingEngine) (accountId : AccountId) : MarginSnapshot :=
  match s.accounts.lookup accountId with
  | none => {}
  | some account =>
    let config := s.effectiveRiskConfig accountId
    let mark (symbol : Symbol) : ℚ := (s.markPrice symbol).getD (account.averageCost symbol)
    let exposure (symbol : Symbol) (qty : ℤ) : ℚ := |(qty : ℚ)| * mark symbol
    let positions := account.positionQtyBySymbol
    let grossExposure := positions.total exposure
    let equity := account.cashBalance +
      positions.total fun symbol (qty : ℤ) => (qty : ℚ) * mark symbol
    let reserved : ℚ := account.reservedCash + account.reservedShortMargin
    let marginUsed := (positions.total fun symbol (qty : ℤ) => exposure symbol qty *
        if qty < 0 then config.shortMarginRequirementFor symbol
        else config.initialMarginRequirementFor symbol) + reserved
    let maintenanceRequirement := positions.total fun symbol (qty : ℤ) =>
      exposure symbol qty * config.maintenanceMarginRequirementFor symbol
    let availableBuyingPower := match config.mode with
      | .cashOnly => max 0 ((account.cashBalance - account.reservedCash : ℤ) : ℚ)
      | .margin =>
        let leverageCap := max 0 (equity * config.maxLeverage - grossExposure - reserved)
        let marginCap := max 0 (equity - marginUsed)
        min leverageCap (marginCap / max (1 / 1000000) config.initialMarginRequirement)
    { grossExposure, equity, marginUsed, maintenanceRequirement, availableBuyingPower
      netLiquidationValue := equity
      shortExposure := positions.total fun symbol (qty : ℤ) =>
        if qty < 0 then exposure symbol qty else 0
      marginCall := equity < maintenanceRequirement }

def accountBuyingPower (s : MatchingEngine) (accountId : AccountId) : ℚ :=
  (s.accountMarginSnapshot accountId).availableBuyingPower

def buyReserve (s : MatchingEngine) (accountId : AccountId) (symbol : Symbol)
    (price qty fee : ℤ) : ℤ :=
  let notional := price * qty + fee
  let config := s.effectiveRiskConfig accountId
  match config.mode with
  | .cashOnly => notional
  | .margin => ⌈(notional : ℚ) * config.initialMarginRequirementFor symbol⌉

def shortMarginReserve (s : MatchingEngine) (accountId : AccountId) (symbol : Symbol)
    (price shortQty : ℤ) : ℤ :=
  if shortQty ≤ 0 then 0
  else ⌈((price * shortQty : ℤ) : ℚ) *
    (s.effectiveRiskConfig accountId).shortMarginRequirementFor symbol⌉

/-- The risk check of a buy order, given the account's reserves less those of the order
being replaced. -/
def validateBuyRisk (s : MatchingEngine) (accountId : AccountId) (symbol : Symbol)
    (price qty reservedCash reservedShort : ℤ) : Option RejectReason :=
  let account := s.account accountId
  let config := s.effectiveRiskConfig accountId
  let limitNotional := price * qty
  let limitFee := s.feeModel.limitFee limitNotional
  match config.mode with
  | .cashOnly =>
    if account.cashBalance - reservedCash < limitNotional + limitFee then some .insufficientCash
    else none
  | .margin =>
    let released : ℤ := account.reservedCash - reservedCash + account.reservedShortMargin -
      reservedShort
    let power := s.accountBuyingPower accountId +
      (released : ℚ) / config.initialMarginRequirementFor symbol
    if power + 1 / 1000000000 < ((limitNotional + limitFee : ℤ) : ℚ) then
      some .insufficientBuyingPower
    else none

/-- The risk check of a sell order, likewise. -/
def validateSellRisk (s : MatchingEngine) (accountId : AccountId) (symbol : Symbol)
    (price qty reservedCash reservedShort reservedQty : ℤ) : Option RejectReason :=
  let account := s.account accountId
  let config := s.effectiveRiskConfig accountId
  let position := account.position symbol
  if qty ≤ position - reservedQty then none
  else if ¬ config.allowShortSelling then some .insufficientPosition
  else
    let shortQty := qty - max 0 (position - reservedQty)
    match config.mode with
    | .cashOnly =>
      if account.cashBalance - reservedCash - reservedShort <
          s.shortMarginReserve accountId symbol price shortQty then
        some .marginRequirementFailed
      else none
    | .margin =>
      let released : ℤ := account.reservedShortMargin - reservedShort
      let power := s.accountBuyingPower accountId +
        (released : ℚ) / config.shortMarginRequirementFor symbol
      if power + 1 / 1000000000 < ((price * shortQty : ℤ) : ℚ) then some .marginRequirementFailed
      else none

def validateOrderRisk (s : MatchingEngine) (accountId : AccountId) (symbol : Symbol) (side : Side)
    (price qty : ℤ) (replacingOrderId : Option OrderId) : Option RejectReason :=
  let account := s.account accountId
  let entryOf (m : Finmap fun _ : OrderId => ℤ) : ℤ :=
    replacingOrderId.elim 0 fun id => m.valueD id 0
  let reservedCash := account.reservedCash - entryOf s.reservedCashByOrderId
  let reservedShort := account.reservedShortMargin - entryOf s.reservedShortMarginByOrderId
  let reservedQty := account.reservedQty symbol - entryOf s.reservedQtyByOrderId
  match side with
  | .bid => s.validateBuyRisk accountId symbol price qty reservedCash reservedShort
  | .ask => s.validateSellRisk accountId symbol price qty reservedCash reservedShort reservedQty

/-- What the engine checks of the two accounts of a trade; `.at` throws where an account
is missing. -/
def assertInvariants (symbol : Symbol) (accountId makerAccountId : AccountId) : Engine Unit := do
  let s ← get
  match s.accounts.lookup accountId, s.accounts.lookup makerAccountId with
  | some taker, some maker =>
    if taker.reservedCash < 0 ∨ maker.reservedCash < 0 ∨ taker.reservedShortMargin < 0 ∨
        maker.reservedShortMargin < 0 then
      throw (.runtimeError "reserved cash invariant violated")
    else if taker.reservedQty symbol < 0 ∨ maker.reservedQty symbol < 0 then
      throw (.runtimeError "reserved_position invariant violated")
    else pure ()
  | _, _ => throw (.runtimeError "unordered_map::at")

end MatchingEngine
end Tes
