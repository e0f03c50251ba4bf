import Mathlib.Data.List.Sort
import Tes.Library.Json

/-! The event models of the Python side and the parser that builds them from dicts. -/
namespace Tes
open Json

namespace EventModels

/-- `DEFAULT_SYMBOL`. -/
def defaultSymbol : String := "DEFAULT"

/-- A text that is one of those listed. -/
abbrev Literal (allowed : List String) := { text : String // text ∈ allowed }

def sides : List String := ["BUY", "SELL"]

def tradingPhases : List String := ["Continuous", "OpeningAuction", "ClosingAuction", "Halted"]

def rejectReasons : List String :=
  ["InvalidPrice", "InvalidQuantity", "UnknownOrderId", "NoLiquidity", "InsufficientCash",
    "InsufficientPosition", "WrongAccount", "InsufficientBuyingPower", "ShortSellingDisabled",
    "MarginRequirementFailed", "MaintenanceMarginBreached", "SymbolHalted", "PriceBandViolation",
    "CircuitBreakerViolation", "AuctionPriceOutOfBand"]

abbrev SideLiteral := Literal sides
abbrev TradingPhaseLiteral := Literal tradingPhases
abbrev RejectReasonLiteral := Literal rejectReasons

end EventModels
open EventModels

/-- An event model, with the fields of its data. -/
inductive TesEngineEvent
  | orderAccepted (orderId : ℤ) (side : SideLiteral) (price qty : ℤ) (symbol : String)
  | hiddenOrderAccepted (orderId : ℤ) (side : SideLiteral) (price totalQty : ℤ) (symbol : String)
  | icebergOrderAccepted (orderId : ℤ) (side : SideLiteral)
      (price totalQty displayQty reserveQty hiddenRemaining currentVisibleQty : ℤ)
      (symbol : String)
  | icebergReplenished (orderId : ℤ) (side : SideLiteral)
      (price replenishedQty reserveQty hiddenRemaining totalRemainingQty : ℤ) (symbol : String)
  | orderRejected (side : SideLiteral) (price qty : ℤ) (reason : RejectReasonLiteral)
      (symbol : String)
  | orderCanceled (orderId : ℤ) (symbol : String)
  | cancelRejected (orderId : ℤ) (reason : RejectReasonLiteral) (symbol : String)
  | tradeExecuted (price qty makerOrderId takerOrderId : ℤ) (symbol : String)
  | orderPartiallyFilled (orderId lastFillQty remainingQty : ℤ) (symbol : String)
  | orderFilled (orderId lastFillQty : ℤ) (symbol : String)
  | orderExpired (orderId : ℤ) (symbol : String)
  | stopOrderAccepted (orderId : ℤ) (side : SideLiteral) (stopPrice qty : ℤ)
      (limitPrice : Option ℤ) (symbol : String)
  | stopOrderTriggered (orderId resultingOrderId : ℤ) (side : SideLiteral) (stopPrice qty : ℤ)
      (limitPrice : Option ℤ) (symbol : String)
  | topOfBook (bestBid bestAsk : Option ℤ) (symbol : String)
  | auctionStarted (symbol : String) (phase : TradingPhaseLiteral)
  | auctionEnded (symbol : String) (phase : TradingPhaseLiteral)
  | auctionUncross (symbol : String) (price qty imbalance : ℤ)
  | symbolHalted (symbol reason : String)
  | symbolResumed (symbol : String)
  | priceBandUpdated (symbol : String) (lowerPrice upperPrice : Option ℤ)
  | circuitBreakerTriggered (symbol : String) (price : ℤ) (reason : String)
  | indicativePriceUpdated (symbol : String) (price : Option ℤ) (qty imbalance : ℤ)
  deriving DecidableEq

namespace EventModels

/-- What the parser raises: a `ValueError`, but for an unhashable value a `TypeError` and for a
missing key a `KeyError`. -/
inductive ParseError
  | mustBeDict (name : String)
  | exactKeys (name : String) (expected keys : List String)
  | eventKeys (name : String) (expected keys : List String)
  | mustBeInt (field : String)
  | mustBeString (field : String)
  | invalidSide
  | invalidPhase
  | invalidReason
  | unknownEventType (eventType : String)
  | unhashable
  | missingKey (key : String)
  deriving DecidableEq

def sorted (keys : List String) : List String := keys.insertionSort (· ≤ ·)

/-- The text of an error; `render` gives the text of a list. -/
def ParseError.message (render : List String → String) : ParseError → String
  | .mustBeDict name => name ++ " must be a dict"
  | .exactKeys name expected keys =>
    name ++ " keys must be exactly " ++ render (sorted expected) ++ ", got " ++
      render (sorted keys)
  | .eventKeys name expected keys =>
    name ++ " keys must be exactly " ++ render (sorted expected) ++ " or " ++
      render (sorted ("symbol" :: expected)) ++ ", got " ++ render (sorted keys)
  | .mustBeInt field => field ++ " must be an int"
  | .mustBeString field => field ++ " must be a string"
  | .invalidSide => "side must be either 'BUY' or 'SELL'"
  | .invalidPhase =>
    "phase must be one of: Continuous, OpeningAuction, ClosingAuction, Halted"
  | .invalidReason => "reason must be one of " ++ ", ".intercalate (sorted rejectReasons)
  | .unknownEventType eventType => "unknown event type: " ++ eventType
  | .unhashable => "unhashable type"
  | .missingKey key => key

abbrev Parsed := Except ParseError

def requireDict (value : Value) (name : String) : Parsed Dict :=
  match value with
  | .dict items => .ok items
  | _ => .error (.mustBeDict name)

/-- The dict has these keys and no others. -/
def HasKeys (value : Dict) (expected : List String) : Prop :=
  (∀ key ∈ value.map Prod.fst, key ∈ expected) ∧ ∀ key ∈ expected, key ∈ value.map Prod.fst

instance (value : Dict) (expected : List String) : Decidable (HasKeys value expected) :=
  inferInstanceAs (Decidable (_ ∧ _))

def requireExactKeys (value : Dict) (expected : List String) (name : String) : Parsed Unit :=
  if HasKeys value expected then .ok () else .error (.exactKeys name expected (Dict.keys value))

def requireEventKeys (value : Dict) (expected : List String) (name : String) : Parsed Unit :=
  if HasKeys value expected ∨ HasKeys value ("symbol" :: expected) then .ok ()
  else .error (.eventKeys name expected (Dict.keys value))

/-- `data[key]`. -/
def getItem (data : Dict) (key : String) : Parsed Value :=
  match data.get key with
  | some value => .ok value
  | none => .error (.missingKey key)

/-- `_require_int` of `data[field]`. -/
def requireInt (data : Dict) (field : String) : Parsed ℤ := do
  match ← getItem data field with
  | .int n => .ok n
  | _ => .error (.mustBeInt field)

def requireOptionalInt (data : Dict) (field : String) : Parsed (Option ℤ) := do
  match ← getItem data field with
  | .null => .ok none
  | .int n => .ok (some n)
  | _ => .error (.mustBeInt field)

def requireString (data : Dict) (field : String) : Parsed String := do
  match ← getItem data field with
  | .str s => .ok s
  | _ => .error (.mustBeString field)

def requireSymbol (data : Dict) : Parsed String := requireString data "symbol"

def optionalSymbol (data : Dict) : Parsed String :=
  match data.get "symbol" with
  | none => .ok defaultSymbol
  | some (.str s) => .ok s
  | some _ => .error (.mustBeString "symbol")

/-- The check of a text against a set of literals. -/
def requireLiteral (allowed : List String) (error : ParseError) (data : Dict) (field : String) :
    Parsed (Literal allowed) := do
  match ← getItem data field with
  | .str s => if h : s ∈ allowed then .ok ⟨s, h⟩ else .error error
  | .list _ | .dict _ => .error .unhashable
  | _ => .error error

def requireSide (data : Dict) : Parsed SideLiteral := requireLiteral sides .invalidSide data "side"

def requireTradingPhase (data : Dict) : Parsed TradingPhaseLiteral :=
  requireLiteral tradingPhases .invalidPhase data "phase"

def requireRejectReason (data : Dict) : Parsed RejectReasonLiteral :=
  requireLiteral rejectReasons .invalidReason data "reason"

/-! The data of each kind of event. -/

def parseOrderAccepted (data : Dict) : Parsed TesEngineEvent := do
  requireEventKeys data ["order_id", "side", "price", "qty"] "OrderAccepted.data"
  pure (.orderAccepted (← requireInt data "order_id") (← requireSide data)
    (← requireInt data "price") (← requireInt data "qty") (← optionalSymbol data))

def parseHiddenOrderAccepted (data : Dict) : Parsed TesEngineEvent := do
  requireEventKeys data ["order_id", "side", "price", "total_qty"] "HiddenOrderAccepted.data"
  pure (.hiddenOrderAccepted (← requireInt data "order_id") (← requireSide data)
    (← requireInt data "price") (← requireInt data "total_qty") (← optionalSymbol data))

def parseIcebergOrderAccepted (data : Dict) : Parsed TesEngineEvent := do
  requireEventKeys data
    ["order_id", "side", "price", "total_qty", "display_qty", "reserve_qty", "hidden_remaining",
      "current_visible_qty"] "IcebergOrderAccepted.data"
  pure (.icebergOrderAccepted (← requireInt data "order_id") (← requireSide data)
    (← requireInt data "price") (← requireInt data "total_qty") (← requireInt data "display_qty")
    (← requireInt data "reserve_qty") (← requireInt data "hidden_remaining")
    (← requireInt data "current_visible_qty") (← optionalSymbol data))

def parseIcebergReplenished (data : Dict) : Parsed TesEngineEvent := do
  requireEventKeys data
    ["order_id", "side", "price", "replenished_qty", "reserve_qty", "hidden_remaining",
      "total_remaining_qty"] "IcebergReplenished.data"
  pure (.icebergReplenished (← requireInt data "order_id") (← requireSide data)
    (← requireInt data "price") (← requireInt data "replenished_qty")
    (← requireInt data "reserve_qty") (← requireInt data "hidden_remaining")
    (← requireInt data "total_remaining_qty") (← optionalSymbol data))

def parseOrderRejected (data : Dict) : Parsed TesEngineEvent := do
  requireEventKeys data ["side", "price", "qty", "reason"] "OrderRejected.data"
  pure (.orderRejected (← requireSide data) (← requireInt data "price") (← requireInt data "qty")
    (← requireRejectReason data) (← optionalSymbol data))

def parseOrderCanceled (data : Dict) : Parsed TesEngineEvent := do
  requireEventKeys data ["order_id"] "OrderCanceled.data"
  pure (.orderCanceled (← requireInt data "order_id") (← optionalSymbol data))

def parseCancelRejected (data : Dict) : Parsed TesEngineEvent := do
  requireEventKeys data ["order_id", "reason"] "CancelRejected.data"
  pure (.cancelRejected (← requireInt data "order_id") (← requireRejectReason data)
    (← optionalSymbol data))

def parseTradeExecuted (data : Dict) : Parsed TesEngineEvent := do
  requireEventKeys data ["price", "qty", "maker_order_id", "taker_order_id"] "TradeExecuted.data"
  pure (.tradeExecuted (← requireInt data "price") (← requireInt data "qty")
    (← requireInt data "maker_order_id") (← requireInt data "taker_order_id")
    (← optionalSymbol data))

def parseStopOrderAccepted (data : Dict) : Parsed TesEngineEvent := do
  requireEventKeys data ["order_id", "side", "stop_price", "qty", "limit_price"]
    "StopOrderAccepted.data"
  pure (.stopOrderAccepted (← requireInt data "order_id") (← requireSide data)
    (← requireInt data "stop_price") (← requireInt data "qty")
    (← requireOptionalInt data "limit_price") (← optionalSymbol data))

def parseStopOrderTriggered (data : Dict) : Parsed TesEngineEvent := do
  requireEventKeys data
    ["order_id", "resulting_order_id", "side", "stop_price", "qty", "limit_price"]
    "StopOrderTriggered.data"
  pure (.stopOrderTriggered (← requireInt data "order_id") (← requireInt data "resulting_order_id")
    (← requireSide data) (← requireInt data "stop_price") (← requireInt data "qty")
    (← requireOptionalInt data "limit_price") (← optionalSymbol data))

def parseTopOfBook (data : Dict) : Parsed TesEngineEvent := do
  requireEventKeys data ["best_bid", "best_ask"] "TopOfBook.data"
  pure (.topOfBook (← requireOptionalInt data "best_bid") (← requireOptionalInt data "best_ask")
    (← optionalSymbol data))

def parseOrderPartiallyFilled (data : Dict) : Parsed TesEngineEvent := do
  requireEventKeys data ["order_id", "last_fill_qty", "remaining_qty"] "OrderPartiallyFilled.data"
  pure (.orderPartiallyFilled (← requireInt data "order_id") (← requireInt data "last_fill_qty")
    (← requireInt data "remaining_qty") (← optionalSymbol data))

def parseOrderFilled (data : Dict) : Parsed TesEngineEvent := do
  requireEventKeys data ["order_id", "last_fill_qty"] "OrderFilled.data"
  pure (.orderFilled (← requireInt data "order_id") (← requireInt data "last_fill_qty")
    (← optionalSymbol data))

def parseOrderExpired (data : Dict) : Parsed TesEngineEvent := do
  requireEventKeys data ["order_id"] "OrderExpired.data"
  pure (.orderExpired (← requireInt data "order_id") (← optionalSymbol data))

def parseSymbolHalted (data : Dict) : Parsed TesEngineEvent := do
  requireExactKeys data ["symbol", "reason"] "SymbolHalted.data"
  let reason ← requireString data "reason"
  pure (.symbolHalted (← requireSymbol data) reason)

def parseSymbolResumed (data : Dict) : Parsed TesEngineEvent := do
  requireExactKeys data ["symbol"] "SymbolResumed.data"
  pure (.symbolResumed (← requireSymbol data))

def parsePriceBandUpdated (data : Dict) : Parsed TesEngineEvent := do
  requireExactKeys data ["symbol", "lower_price", "upper_price"] "PriceBandUpdated.data"
  pure (.priceBandUpdated (← requireSymbol data) (← requireOptionalInt data "lower_price")
    (← requireOptionalInt data "upper_price"))

def parseCircuitBreakerTriggered (data : Dict) : Parsed TesEngineEvent := do
  requireExactKeys data ["symbol", "price", "reason"] "CircuitBreakerTriggered.data"
  let reason ← requireString data "reason"
  pure (.circuitBreakerTriggered (← requireSymbol data) (← requireInt data "price") reason)

def parseAuctionStarted (data : Dict) : Parsed TesEngineEvent := do
  requireExactKeys data ["symbol", "phase"] "AuctionStarted.data"
  pure (.auctionStarted (← requireSymbol data) (← requireTradingPhase data))

def parseAuctionEnded (data : Dict) : Parsed TesEngineEvent := do
  requireExactKeys data ["symbol", "phase"] "AuctionEnded.data"
  pure (.auctionEnded (← requireSymbol data) (← requireTradingPhase data))

def parseAuctionUncross (data : Dict) : Parsed TesEngineEvent := do
  requireExactKeys data ["symbol", "price", "qty", "imbalance"] "AuctionUncross.data"
  pure (.auctionUncross (← requireSymbol data) (← requireInt data "price")
    (← requireInt data "qty") (← requireInt data "imbalance"))

def parseIndicativePriceUpdated (data : Dict) : Parsed TesEngineEvent := do
  requireExactKeys data ["symbol", "price", "qty", "imbalance"] "IndicativePriceUpdated.data"
  pure (.indicativePriceUpdated (← requireSymbol data) (← requireOptionalInt data "price")
    (← requireInt data "qty") (← requireInt data "imbalance"))

/-- The parser of the data of an event type. -/
def parseData (eventType : String) (data : Dict) : Parsed TesEngineEvent :=
  if eventType = "OrderAccepted" then parseOrderAccepted data
  else if eventType = "HiddenOrderAccepted" then parseHiddenOrderAccepted data
  else if eventType = "IcebergOrderAccepted" then parseIcebergOrderAccepted data
  else if eventType = "IcebergReplenished" then parseIcebergReplenished data
  else if eventType = "OrderRejected" then parseOrderRejected data
  else if eventType = "OrderCanceled" then parseOrderCanceled data
  else if eventType = "CancelRejected" then parseCancelRejected data
  else if eventType = "TradeExecuted" then parseTradeExecuted data
  else if eventType = "StopOrderAccepted" then parseStopOrderAccepted data
  else if eventType = "StopOrderTriggered" then parseStopOrderTriggered data
  else if eventType = "TopOfBook" then parseTopOfBook data
  else if eventType = "OrderPartiallyFilled" then parseOrderPartiallyFilled data
  else if eventType = "OrderFilled" then parseOrderFilled data
  else if eventType = "OrderExpired" then parseOrderExpired data
  else if eventType = "SymbolHalted" then parseSymbolHalted data
  else if eventType = "SymbolResumed" then parseSymbolResumed data
  else if eventType = "PriceBandUpdated" then parsePriceBandUpdated data
  else if eventType = "CircuitBreakerTriggered" then parseCircuitBreakerTriggered data
  else if eventType = "AuctionStarted" then parseAuctionStarted data
  else if eventType = "AuctionEnded" then parseAuctionEnded data
  else if eventType = "AuctionUncross" then parseAuctionUncross data
  else if eventType = "IndicativePriceUpdated" then parseIndicativePriceUpdated data
  else .error (.unknownEventType eventType)

def parseEvent (raw : Value) : Parsed TesEngineEvent := do
  let event ← requireDict raw "event"
  requireExactKeys event ["type", "data"] "event"
  let eventType ← requireString event "type"
  let data ← requireDict (← getItem event "data") "event.data"
  parseData eventType data

/-- The events of a list of raw ones, up to the first that is malformed. -/
def parseEvents (raws : List Value) : Parsed (List TesEngineEvent) := raws.mapM parseEvent

end EventModels
end Tes
