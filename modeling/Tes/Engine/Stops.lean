import Tes.Engine.OrderEntry

/-! Stop orders: acceptance, the trigger price and the cascade of triggered stops. -/
namespace Tes
open Rounding

/-- Whether the trigger price has reached the stop. -/
def StopOrderState.triggers (stop : StopOrderState) (current : ℤ) : Prop :=
  match stop.side with
  | .bid => stop.stopPrice ≤ current
  | .ask => current ≤ stop.stopPrice

instance (stop : StopOrderState) (current : ℤ) : Decidable (stop.triggers current) :=
  match stop with
  | { side := .bid, .. } => inferInstanceAs (Decidable (_ ≤ _))
  | { side := .ask, .. } => inferInstanceAs (Decidable (_ ≤ _))

namespace MatchingEngine

/-- Take the next order id. -/
def takeOrderId : Engine OrderId := do
  let s ← get
  set { s with nextOrderId := s.nextOrderId + 1 }
  pure s.nextOrderId

def pendingStopIds (s : MatchingEngine) (symbol : Symbol) : List OrderId :=
  s.pendingStopIdsBySymbol.valueD symbol []

/-- Drop a stop order and its place among the pending ones. -/
def dropStop (s : MatchingEngine) (symbol : Symbol) (id : OrderId) : MatchingEngine :=
  { s with
    stopOrdersById := s.stopOrdersById.erase id
    pendingStopIdsBySymbol := s.pendingStopIdsBySymbol.insert symbol
      ((s.pendingStopIds symbol).filter fun other => other ≠ id) }

def addStop (s : MatchingEngine) (stop : StopOrderState) : MatchingEngine :=
  { s with
    stopOrdersById := s.stopOrdersById.insert stop.sequence stop
    pendingStopIdsBySymbol := s.pendingStopIdsBySymbol.insert stop.symbol
      (s.pendingStopIds stop.symbol ++ [stop.sequence]) }

def placeStopOrderWithAccountAndId (accountId : AccountId) (symbol : Symbol) (stopId : OrderId)
    (side : Side) (stopPrice qty : ℤ) (limitPrice : Option ℤ) : Engine (List Event) := do
  let s ← get
  let riskPrice := limitPrice.getD stopPrice
  if ¬ isValidPrice stopPrice ∨ ∃ limit ∈ limitPrice, ¬ isValidPrice limit then
    pure [.orderRejected side riskPrice qty .invalidPrice symbol]
  else if ¬ isValidQty qty then
    pure [.orderRejected side riskPrice qty .invalidQuantity symbol]
  else do
    let s := s.touchAccount accountId symbol
    match s.validateMarketControl symbol riskPrice with
    | some failure => do
      set s
      pure [.orderRejected side riskPrice qty failure symbol]
    | none =>
      match s.validateOrderRisk accountId symbol side riskPrice qty none with
      | some failure => do
        set (s.appendLedgerEntry
          { accountId, symbol, reason := "stop_order_rejected_risk_failure",
            relatedOrderId := some stopId })
        pure [.orderRejected side riskPrice qty failure symbol]
      | none => do
        set ((s.addStop { accountId, symbol, side, stopPrice, qty, limitPrice,
                          sequence := stopId }).appendLedgerEntry
          { accountId, symbol, reason := "stop_order_accepted", relatedOrderId := some stopId })
        pure [.stopOrderAccepted stopId side stopPrice qty limitPrice symbol]

def triggerPrice (s : MatchingEngine) (symbol : Symbol) : Option ℤ :=
  match s.latestMarkBySymbol.lookup symbol with
  | some mark => some (llround mark)
  | none =>
    match (s.bookFor symbol).bestBid, (s.bookFor symbol).bestAsk with
    | some bid, some ask => if bid < ask then some ((bid + ask).tdiv 2) else none
    | _, _ => none

/-- The pending stops of the symbol that the price triggers, in id order. -/
def readyStops (s : MatchingEngine) (symbol : Symbol) (current : ℤ) : List OrderId :=
  ((s.pendingStopIds symbol).filter fun id =>
    ∃ stop ∈ s.stopOrdersById.lookup id, stop.triggers current).insertionSort (· ≤ ·)

/-- The order a triggered stop becomes. -/
def placeChild (stop : StopOrderState) (symbol : Symbol) (resultingOrderId : OrderId) :
    Engine (List Event) :=
  match stop.limitPrice with
  | some limit =>
    placeLimitOrderWithAccountAndId stop.accountId symbol resultingOrderId stop.side limit
      stop.qty .gtc
  | none =>
    placeMarketOrderWithAccountAndId stop.accountId symbol resultingOrderId stop.side stop.qty

/-- A stop leaves the pending ones and takes the id of its child. -/
def triggerStop (s : MatchingEngine) (symbol : Symbol) (id : OrderId) (stop : StopOrderState) :
    MatchingEngine :=
  { s.dropStop symbol id with nextOrderId := s.nextOrderId + 1 }.appendLedgerEntry
    { accountId := stop.accountId, symbol, reason := "stop_order_triggered",
      relatedOrderId := some id, relatedTradeId := some s.nextOrderId }

def triggeredEvent (s : MatchingEngine) (symbol : Symbol) (id : OrderId) (stop : StopOrderState) :
    Event :=
  .stopOrderTriggered id s.nextOrderId stop.side stop.stopPrice stop.qty stop.limitPrice symbol

def isTrade : Event → Bool
  | .tradeExecuted .. => true
  | _ => false

/-- Trigger the ready stops one after the other; the flag tells whether a child traded. -/
def triggerAll (symbol : Symbol) : List OrderId → Engine (Bool × List Event)
  | [] => pure (false, [])
  | id :: ready => do
    let s ← get
    match s.stopOrdersById.lookup id with
    | none => triggerAll symbol ready
    | some stop => do
      set (s.triggerStop symbol id stop)
      let child ← placeChild stop symbol s.nextOrderId
      let (traded, events) ← triggerAll symbol ready
      pure (child.any isTrade || traded, s.triggeredEvent symbol id stop :: child ++ events)

/-- Rounds of the cascade. Each one drops a stop and none adds any, so their number is
fuel enough. -/
def cascade (symbol : Symbol) : ℕ → Engine (List Event)
  | 0 => pure []
  | fuel + 1 => do
    let s ← get
    match s.triggerPrice symbol with
    | none => pure []
    | some current =>
      if s.readyStops symbol current = [] then pure []
      else do
        let (traded, events) ← triggerAll symbol (s.readyStops symbol current)
        if traded then do
          let more ← cascade symbol fuel
          pure (events ++ more)
        else pure events

def evaluateStopOrders (symbol : Symbol) : Engine (List Event) := do
  let s ← get
  if s.isHalted symbol then pure []
  else cascade symbol (s.stopOrdersById.keys.card + 1)

end MatchingEngine
end Tes
