import Tes.Engine.Types

/-! The events an operation returns. -/
namespace Tes

inductive RejectReason
  | invalidPrice
  | invalidQuantity
  | unknownOrderId
  | noLiquidity
  | insufficientCash
  | insufficientPosition
  | wrongAccount
  | insufficientBuyingPower
  | shortSellingDisabled
  | marginRequirementFailed
  | maintenanceMarginBreached
  | symbolHalted
  | priceBandViolation
  | circuitBreakerViolation
  | auctionPriceOutOfBand
  deriving DecidableEq, Repr

/-- A new visible clip of an iceberg order. -/
structure IcebergReplenished where
  id : OrderId
  side : Side
  price : ℤ
  replenishedQty : ℤ
  reserveQty : ℤ
  totalRemainingQty : ℤ
  symbol : Symbol := defaultSymbol
  deriving DecidableEq, Repr

inductive Event
  | orderAccepted (id : OrderId) (side : Side) (price : ℤ) (qty : ℤ) (symbol : Symbol)
  | hiddenOrderAccepted (id : OrderId) (side : Side) (price : ℤ) (totalQty : ℤ)
      (symbol : Symbol)
  | icebergOrderAccepted (id : OrderId) (side : Side) (price : ℤ)
      (totalQty displayQty reserveQty currentVisibleQty : ℤ) (symbol : Symbol)
  | icebergReplenished (clip : IcebergReplenished)
  | orderRejected (side : Side) (price : ℤ) (qty : ℤ) (reason : RejectReason)
      (symbol : Symbol)
  | orderCanceled (id : OrderId) (symbol : Symbol)
  | cancelRejected (id : OrderId) (reason : RejectReason) (symbol : Symbol)
  | tradeExecuted (takerId makerId : OrderId) (takerSide : Side) (price : ℤ) (qty : ℤ)
      (symbol : Symbol)
  | orderPartiallyFilled (id : OrderId) (lastFillQty remainingQty : ℤ) (symbol : Symbol)
  | orderFilled (id : OrderId) (lastFillQty : ℤ) (symbol : Symbol)
  | orderExpired (id : OrderId) (symbol : Symbol)
  | stopOrderAccepted (id : OrderId) (side : Side) (stopPrice : ℤ) (qty : ℤ)
      (limitPrice : Option ℤ) (symbol : Symbol)
  | stopOrderTriggered (id resultingOrderId : OrderId) (side : Side) (stopPrice : ℤ)
      (qty : ℤ) (limitPrice : Option ℤ) (symbol : Symbol)
  | topOfBook (bestBid bestAsk : Option ℤ) (symbol : Symbol)
  | symbolHalted (symbol : Symbol) (reason : String)
  | symbolResumed (symbol : Symbol)
  | priceBandUpdated (symbol : Symbol) (lowerPrice upperPrice : Option ℤ)
  | circuitBreakerTriggered (symbol : Symbol) (price : ℤ) (reason : String)
  | auctionStarted (symbol : Symbol) (phase : TradingPhase)
  | auctionEnded (symbol : Symbol) (phase : TradingPhase)
  | auctionUncross (symbol : Symbol) (price : ℤ) (qty : ℤ) (imbalance : ℤ)
  | indicativePriceUpdated (symbol : Symbol) (price : Option ℤ) (qty : ℤ) (imbalance : ℤ)
  deriving DecidableEq, Repr

namespace Event

/-- The engine's symbol on the events of an order that the book accepted. -/
def tagAccepted (symbol : Symbol) : Event → Event
  | orderAccepted id side price qty _ => orderAccepted id side price qty symbol
  | hiddenOrderAccepted id side price totalQty _ =>
    hiddenOrderAccepted id side price totalQty symbol
  | icebergOrderAccepted id side price totalQty displayQty reserveQty currentVisibleQty _ =>
    icebergOrderAccepted id side price totalQty displayQty reserveQty currentVisibleQty symbol
  | topOfBook bestBid bestAsk _ => topOfBook bestBid bestAsk symbol
  | event => event

/-- The engine's symbol on the events of a cancel that the book performed. -/
def tagCanceled (symbol : Symbol) : Event → Event
  | orderCanceled id _ => orderCanceled id symbol
  | topOfBook bestBid bestAsk _ => topOfBook bestBid bestAsk symbol
  | event => event

end Event
end Tes
