import Tes.Engine.Stops

/-! The public operations, and runs of them from a fresh engine. -/
namespace Tes
namespace MatchingEngine

/-! Settings. -/

def setFeeModel (model : FeeModel) : Engine (List Event) := do
  if model.makerFeeRate < 0 ∨ model.takerFeeRate < 0 then
    throw (.invalidArgument "fee rates must be non-negative")
  else if ∃ fee ∈ model.fixedFee, fee < 0 then
    throw (.invalidArgument "fixed fee must be non-negative")
  else do
    modify fun s => { s with feeModel := model }
    pure []

def setAccountRiskConfig (accountId : AccountId) (config : AccountRiskConfig) :
    Engine (List Event) := do
  if config.maxLeverage < 1 then throw (.invalidArgument "max_leverage must be at least 1.0")
  else if config.initialMarginRequirement ≤ 0 ∨ config.maintenanceMarginRequirement ≤ 0 ∨
      config.shortMarginRequirement ≤ 0 then
    throw (.invalidArgument "margin requirements must be positive")
  else do
    modify fun s => { s with riskConfigs := s.riskConfigs.insert accountId config }
    pure []

def setAccountState (accountId : AccountId) (symbol : Symbol) (cashBalance positionQty : ℤ) :
    Engine (List Event) := do
  modify fun s => s.updateAccount accountId fun account =>
    { account with
      cashBalance
      positionQtyBySymbol := account.positionQtyBySymbol.insert symbol positionQty }
  pure []

/-! Market controls. -/

def haltSymbol (symbol : Symbol) (reason : String) : Engine (List Event) := do
  modify fun s => s.withHalt symbol reason
  pure [.symbolHalted symbol reason]

def resumeSymbol (symbol : Symbol) : Engine (List Event) := do
  let s ← get
  set { s with
    tradingPhasesBySymbol := s.tradingPhasesBySymbol.insert symbol .continuous
    haltReasonsBySymbol := s.haltReasonsBySymbol.erase symbol }
  if s.isHalted symbol then pure [.symbolResumed symbol] else pure []

def setPriceBands (symbol : Symbol) (lowerPrice upperPrice : ℤ) : Engine (List Event) := do
  if ¬ isValidPrice lowerPrice ∨ ¬ isValidPrice upperPrice ∨ upperPrice < lowerPrice then
    throw (.invalidArgument "price band must be valid and lower <= upper")
  else do
    modify fun s =>
      { s with
        priceBandsBySymbol := s.priceBandsBySymbol.insert symbol ⟨lowerPrice, upperPrice⟩ }
    pure [.priceBandUpdated symbol lowerPrice upperPrice]

def clearPriceBands (symbol : Symbol) : Engine (List Event) := do
  modify fun s => { s with priceBandsBySymbol := s.priceBandsBySymbol.erase symbol }
  pure [.priceBandUpdated symbol none none]

/-- The phase and halt reason after `setTradingPhase`. -/
def withPhase (s : MatchingEngine) (symbol : Symbol) (phase : TradingPhase) : MatchingEngine :=
  { s with
    tradingPhasesBySymbol := s.tradingPhasesBySymbol.insert symbol phase
    haltReasonsBySymbol :=
      if phase ≠ .halted then s.haltReasonsBySymbol.erase symbol
      else if s.tradingPhase symbol = phase then s.haltReasonsBySymbol
      else s.haltReasonsBySymbol.insert symbol "TradingPhaseHalted" }

def phaseEvents (s : MatchingEngine) (symbol : Symbol) (phase : TradingPhase) : List Event :=
  if s.tradingPhase symbol = phase then []
  else match phase with
    | .halted => [.symbolHalted symbol "TradingPhaseHalted"]
    | .openingAuction | .closingAuction =>
      [.auctionStarted symbol phase, s.indicativePriceEvent symbol]
    | .continuous => if s.inAuction symbol then [.auctionEnded symbol phase] else []

def setTradingPhase (symbol : Symbol) (phase : TradingPhase) : Engine (List Event) := do
  let s ← get
  set (s.withPhase symbol phase)
  pure (s.phaseEvents symbol phase)

/-! Orders. Each entry is followed by the stops it triggers. -/

/-- Evaluate the stops of a symbol after an entry, and advance its sequence number. -/
def followEntry (symbol : Symbol) (entry : Engine (List Event)) : Engine (List Event) := do
  let events ← entry
  let triggered ← evaluateStopOrders symbol
  modify fun s => s.trackEvents (events ++ triggered)
  pure (events ++ triggered)

def placeLimitOrder (accountId : AccountId) (symbol : Symbol) (side : Side) (price qty : ℤ)
    (tif : TimeInForce) : Engine (List Event) := do
  let id ← takeOrderId
  followEntry symbol (placeLimitOrderWithAccountAndId accountId symbol id side price qty tif)

def placeHiddenOrder (accountId : AccountId) (symbol : Symbol) (side : Side) (price qty : ℤ) :
    Engine (List Event) := do
  let id ← takeOrderId
  followEntry symbol
    (placeVisibleOrderWithAccountAndId accountId symbol id side price qty .gtc .hidden 0)

def placeIcebergOrder (accountId : AccountId) (symbol : Symbol) (side : Side)
    (price totalQty displayQty : ℤ) : Engine (List Event) := do
  let id ← takeOrderId
  followEntry symbol
    (placeVisibleOrderWithAccountAndId accountId symbol id side price totalQty .gtc .iceberg
      displayQty)

def placeMarketOrder (accountId : AccountId) (symbol : Symbol) (side : Side) (qty : ℤ) :
    Engine (List Event) := do
  let id ← takeOrderId
  followEntry symbol (placeMarketOrderWithAccountAndId accountId symbol id side qty)

def placeStopOrder (accountId : AccountId) (symbol : Symbol) (side : Side)
    (stopPrice qty : ℤ) : Engine (List Event) := do
  let id ← takeOrderId
  followEntry symbol (placeStopOrderWithAccountAndId accountId symbol id side stopPrice qty none)

def placeStopLimitOrder (accountId : AccountId) (symbol : Symbol) (side : Side)
    (stopPrice limitPrice qty : ℤ) : Engine (List Event) := do
  let id ← takeOrderId
  followEntry symbol
    (placeStopOrderWithAccountAndId accountId symbol id side stopPrice qty limitPrice)

/-! Release the reserves of a cancelled order. -/

/-- The ledger entry of such a release. -/
def cancelRelease (accountId : AccountId) (symbol : Symbol) (id : OrderId) (cash qty : ℤ) :
    AccountLedgerEntry :=
  { accountId, symbol, reason := "cancel_release", reservedCashDelta := -cash,
    reservedPositionDelta := -qty, relatedOrderId := some id }

def cancelCash (s : MatchingEngine) (accountId : AccountId) (symbol : Symbol) (id : OrderId) :
    MatchingEngine :=
  match s.reservedCashByOrderId.lookup id with
  | none => s
  | some reserved =>
    { (s.updateAccount accountId fun account =>
        { account with reservedCash := account.reservedCash - reserved }).appendLedgerEntry
          (cancelRelease accountId symbol id reserved 0) with
      reservedCashByOrderId := s.reservedCashByOrderId.erase id }

def cancelQty (s : MatchingEngine) (accountId : AccountId) (symbol : Symbol) (id : OrderId) :
    MatchingEngine :=
  match s.reservedQtyByOrderId.lookup id with
  | none => s
  | some reserved =>
    { (s.updateAccount accountId fun account =>
        { account with
          reservedQtyBySymbol := account.reservedQtyBySymbol.insert symbol
            (account.reservedQty symbol - reserved) }).appendLedgerEntry
          (cancelRelease accountId symbol id 0 reserved) with
      reservedQtyByOrderId := s.reservedQtyByOrderId.erase id }

def cancelShortMargin (s : MatchingEngine) (accountId : AccountId) (symbol : Symbol)
    (id : OrderId) : MatchingEngine :=
  match s.reservedShortMarginByOrderId.lookup id with
  | none => s
  | some reserved =>
    { (s.updateAccount accountId fun account =>
        { account with
          reservedShortMargin := account.reservedShortMargin - reserved }).appendLedgerEntry
          (cancelRelease accountId symbol id reserved 0) with
      reservedShortMarginByOrderId := s.reservedShortMarginByOrderId.erase id }

def releaseAll (s : MatchingEngine) (accountId : AccountId) (symbol : Symbol) (id : OrderId) :
    MatchingEngine :=
  ((s.cancelCash accountId symbol id).cancelQty accountId symbol id).cancelShortMargin accountId
    symbol id

/-- Take a resting order out of the engine. -/
def cancelResting (s : MatchingEngine) (accountId : AccountId) (symbol : Symbol) (id : OrderId) :
    MatchingEngine :=
  let released := (s.setBook symbol ((s.bookFor symbol).cancel id).2).releaseAll accountId symbol id
  { released with orderOwnershipById := released.orderOwnershipById.erase id }

def cancel (accountId : AccountId) (id : OrderId) : Engine (List Event) := do
  let s ← get
  match s.stopOrdersById.lookup id with
  | some stop =>
    if stop.accountId ≠ accountId then pure [.cancelRejected id .wrongAccount stop.symbol]
    else do
      let events := [Event.orderCanceled id stop.symbol]
      set (((s.dropStop stop.symbol id).appendLedgerEntry
        { accountId, symbol := stop.symbol, reason := "stop_order_canceled",
          relatedOrderId := some id }).trackEvents events)
      pure events
  | none =>
    match s.orderOwnershipById.lookup id with
    | none => pure [.cancelRejected id .unknownOrderId defaultSymbol]
    | some owner =>
      if owner.accountId ≠ accountId then pure [.cancelRejected id .wrongAccount owner.symbol]
      else if ((s.bookFor owner.symbol).cancel id).1 = [] then
        pure [.cancelRejected id .unknownOrderId owner.symbol]
      else do
        let events := ((s.bookFor owner.symbol).cancel id).1.map (Event.tagCanceled owner.symbol)
        set ((s.cancelResting accountId owner.symbol id).trackEvents events)
        pure events

/-- What `replaceOrder` checks before it looks at the account's reserves. -/
def validateReplace (s : MatchingEngine) (owner : OrderOwnership) (newPrice newQty : ℤ) :
    Option RejectReason :=
  if owner.visibility ≠ .displayed then some .unknownOrderId
  else if ¬ isValidPrice newPrice then some .invalidPrice
  else if ¬ isValidQty newQty then some .invalidQuantity
  else s.validateMarketControl owner.symbol newPrice

/-- The journal of a replacement that goes ahead. -/
def replaceReleased (s : MatchingEngine) (accountId : AccountId) (symbol : Symbol)
    (id : OrderId) : MatchingEngine :=
  s.appendLedgerEntry
    { accountId, symbol, reason := "replace_release_re_reserve", relatedOrderId := some id }

def replaceOrder (accountId : AccountId) (id : OrderId) (newPrice newQty : ℤ) :
    Engine (List Event) := do
  let s ← get
  match s.orderOwnershipById.lookup id with
  | none => pure [.cancelRejected id .unknownOrderId defaultSymbol]
  | some owner =>
    if owner.accountId ≠ accountId then pure [.cancelRejected id .wrongAccount owner.symbol]
    else
      match s.validateReplace owner newPrice newQty with
      | some failure => pure [.orderRejected owner.side newPrice newQty failure owner.symbol]
      | none =>
        match s.validateOrderRisk accountId owner.symbol owner.side newPrice newQty (some id) with
        | some failure => do
          set (s.appendLedgerEntry
            { accountId, symbol := owner.symbol, reason := "replace_rejected_risk_failure",
              relatedOrderId := some id })
          pure [.orderRejected owner.side newPrice newQty failure owner.symbol]
        | none => do
          set (s.replaceReleased accountId owner.symbol id)
          let events ← cancel accountId id
          let replacement ← placeLimitOrderWithAccountAndId accountId owner.symbol id owner.side
            newPrice newQty .gtc
          modify fun s => s.trackEvents replacement
          pure (events ++ replacement)

/-- The stop order with its new parameters. -/
def withReplacedStop (s : MatchingEngine) (id : OrderId) (stop : StopOrderState)
    (newStopPrice newQty : ℤ) (newLimitPrice : Option ℤ) : MatchingEngine :=
  { s with
    stopOrdersById := s.stopOrdersById.insert id
      { stop with
        stopPrice := newStopPrice, qty := newQty
        limitPrice := newLimitPrice.orElse fun _ => stop.limitPrice } }

/-- Give a pending stop new parameters. The two public forms differ in the limit price,
in the price the risk check uses and in the reason on the ledger. -/
def replaceStop (accountId : AccountId) (id : OrderId) (stop : StopOrderState)
    (newStopPrice newQty : ℤ) (newLimitPrice : Option ℤ) (reason : String) :
    Engine (List Event) := do
  let s ← get
  let riskPrice := newLimitPrice.getD newStopPrice
  if ¬ isValidPrice newStopPrice ∨ ∃ limit ∈ newLimitPrice, ¬ isValidPrice limit then
    pure [.orderRejected stop.side riskPrice newQty .invalidPrice stop.symbol]
  else if ¬ isValidQty newQty then
    pure [.orderRejected stop.side riskPrice newQty .invalidQuantity stop.symbol]
  else
    match s.validateOrderRisk accountId stop.symbol stop.side riskPrice newQty none with
    | some failure => do
      set (s.appendLedgerEntry
        { accountId, symbol := stop.symbol, reason, relatedOrderId := some id })
      pure [.orderRejected stop.side riskPrice newQty failure stop.symbol]
    | none => do
      set (s.withReplacedStop id stop newStopPrice newQty newLimitPrice)
      followEntry stop.symbol (pure
        [.orderCanceled id stop.symbol,
          .stopOrderAccepted id stop.side newStopPrice newQty newLimitPrice stop.symbol])

def replaceStopLimitOrder (accountId : AccountId) (id : OrderId)
    (newStopPrice newLimitPrice newQty : ℤ) : Engine (List Event) := do
  let s ← get
  match s.stopOrdersById.lookup id with
  | none => pure [.cancelRejected id .unknownOrderId defaultSymbol]
  | some stop =>
    if stop.accountId ≠ accountId then pure [.cancelRejected id .wrongAccount stop.symbol]
    else
      replaceStop accountId id stop newStopPrice newQty (some newLimitPrice)
        "replace_stop_limit_rejected_risk_failure"

def replaceStopOrder (accountId : AccountId) (id : OrderId) (newStopPrice newQty : ℤ) :
    Engine (List Event) := do
  let s ← get
  match s.stopOrdersById.lookup id with
  | none => pure [.cancelRejected id .unknownOrderId defaultSymbol]
  | some stop =>
    if stop.accountId ≠ accountId then pure [.cancelRejected id .wrongAccount stop.symbol]
    else
      match stop.limitPrice with
      | some limit => replaceStopLimitOrder accountId id newStopPrice limit newQty
      | none =>
        replaceStop accountId id stop newStopPrice newQty none
          "replace_stop_rejected_risk_failure"

end MatchingEngine

/-- A public operation with its arguments. -/
inductive Op
  | setFeeModel (model : FeeModel)
  | setAccountRiskConfig (accountId : AccountId) (config : AccountRiskConfig)
  | setAccountState (accountId : AccountId) (symbol : Symbol) (cashBalance positionQty : ℤ)
  | haltSymbol (symbol : Symbol) (reason : String)
  | resumeSymbol (symbol : Symbol)
  | setPriceBands (symbol : Symbol) (lowerPrice upperPrice : ℤ)
  | clearPriceBands (symbol : Symbol)
  | setTradingPhase (symbol : Symbol) (phase : TradingPhase)
  | placeLimitOrder (accountId : AccountId) (symbol : Symbol) (side : Side) (price qty : ℤ)
      (tif : TimeInForce)
  | placeHiddenOrder (accountId : AccountId) (symbol : Symbol) (side : Side) (price qty : ℤ)
  | placeIcebergOrder (accountId : AccountId) (symbol : Symbol) (side : Side)
      (price totalQty displayQty : ℤ)
  | placeMarketOrder (accountId : AccountId) (symbol : Symbol) (side : Side) (qty : ℤ)
  | placeStopOrder (accountId : AccountId) (symbol : Symbol) (side : Side) (stopPrice qty : ℤ)
  | placeStopLimitOrder (accountId : AccountId) (symbol : Symbol) (side : Side)
      (stopPrice limitPrice qty : ℤ)
  | cancel (accountId : AccountId) (id : OrderId)
  | replaceOrder (accountId : AccountId) (id : OrderId) (newPrice newQty : ℤ)
  | replaceStopOrder (accountId : AccountId) (id : OrderId) (newStopPrice newQty : ℤ)
  | replaceStopLimitOrder (accountId : AccountId) (id : OrderId)
      (newStopPrice newLimitPrice newQty : ℤ)
  | uncross (symbol : Symbol)

namespace Op
open MatchingEngine

def exec : Op → Engine (List Event)
  | .setFeeModel model => MatchingEngine.setFeeModel model
  | .setAccountRiskConfig accountId config => MatchingEngine.setAccountRiskConfig accountId config
  | .setAccountState accountId symbol cashBalance positionQty =>
    MatchingEngine.setAccountState accountId symbol cashBalance positionQty
  | .haltSymbol symbol reason => MatchingEngine.haltSymbol symbol reason
  | .resumeSymbol symbol => MatchingEngine.resumeSymbol symbol
  | .setPriceBands symbol lowerPrice upperPrice =>
    MatchingEngine.setPriceBands symbol lowerPrice upperPrice
  | .clearPriceBands symbol => MatchingEngine.clearPriceBands symbol
  | .setTradingPhase symbol phase => MatchingEngine.setTradingPhase symbol phase
  | .placeLimitOrder accountId symbol side price qty tif =>
    MatchingEngine.placeLimitOrder accountId symbol side price qty tif
  | .placeHiddenOrder accountId symbol side price qty =>
    MatchingEngine.placeHiddenOrder accountId symbol side price qty
  | .placeIcebergOrder accountId symbol side price totalQty displayQty =>
    MatchingEngine.placeIcebergOrder accountId symbol side price totalQty displayQty
  | .placeMarketOrder accountId symbol side qty =>
    MatchingEngine.placeMarketOrder accountId symbol side qty
  | .placeStopOrder accountId symbol side stopPrice qty =>
    MatchingEngine.placeStopOrder accountId symbol side stopPrice qty
  | .placeStopLimitOrder accountId symbol side stopPrice limitPrice qty =>
    MatchingEngine.placeStopLimitOrder accountId symbol side stopPrice limitPrice qty
  | .cancel accountId id => MatchingEngine.cancel accountId id
  | .replaceOrder accountId id newPrice newQty =>
    MatchingEngine.replaceOrder accountId id newPrice newQty
  | .replaceStopOrder accountId id newStopPrice newQty =>
    MatchingEngine.replaceStopOrder accountId id newStopPrice newQty
  | .replaceStopLimitOrder accountId id newStopPrice newLimitPrice newQty =>
    MatchingEngine.replaceStopLimitOrder accountId id newStopPrice newLimitPrice newQty
  | .uncross symbol => MatchingEngine.uncross symbol

end Op

/-- The state of an engine before its first operation. -/
def MatchingEngine.fresh : MatchingEngine := {}

/-- A run from `start`: operations that meet the condition `C`, each with the events it
returns. An operation that throws returns none, and the run goes on from the state it had
reached. -/
inductive Run (C : List (Op × List Event) → MatchingEngine → Op → Prop) (start : MatchingEngine) :
    List (Op × List Event) → MatchingEngine → Prop
  | nil : Run C start [] start
  | returns {s s' : MatchingEngine} {ops : List (Op × List Event)} {op : Op}
      {events : List Event} :
      Run C start ops s → C ops s op → op.exec s = .ok events s' →
      Run C start (ops ++ [(op, events)]) s'
  | throws {s s' : MatchingEngine} {ops : List (Op × List Event)} {op : Op} {e : EngineError} :
      Run C start ops s → C ops s op → op.exec s = .error e s' →
      Run C start (ops ++ [(op, [])]) s'

/-- A state that some run from a fresh engine reaches. -/
def Reachable (s : MatchingEngine) : Prop :=
  ∃ ops, Run (fun _ _ _ => True) MatchingEngine.fresh ops s

end Tes
