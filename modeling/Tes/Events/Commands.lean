import Tes.Events.Models

/-! The command models of the Python side and the parser that builds them from dicts. -/
namespace Tes
open Json EventModels

namespace CommandModels

def timesInForce : List String := ["GTC", "IOC", "FOK"]

abbrev TimeInForceLiteral := Literal timesInForce

/-- What `_require_positive_int` lets through. -/
abbrev PositiveInt := { n : ℤ // 0 < n }

/-- A command model, with its fields. -/
inductive TesCommand
  | limitOrder (side : SideLiteral) (price qty : PositiveInt) (timeInForce : TimeInForceLiteral)
      (symbol : String)
  | hiddenOrder (side : SideLiteral) (price qty : PositiveInt) (symbol : String)
  | icebergOrder (side : SideLiteral) (price totalQty displayQty : PositiveInt) (symbol : String)
      (display_le : displayQty.1 ≤ totalQty.1)
  | marketOrder (side : SideLiteral) (qty : PositiveInt) (symbol : String)
  | stopOrder (side : SideLiteral) (stopPrice qty : PositiveInt) (symbol : String)
  | stopLimitOrder (side : SideLiteral) (stopPrice limitPrice qty : PositiveInt) (symbol : String)
  | cancelOrder (orderId : PositiveInt)
  | replaceOrder (orderId price qty : PositiveInt)
  | setTradingPhase (symbol : String) (phase : TradingPhaseLiteral)
  | haltSymbol (symbol reason : String)
  | resumeSymbol (symbol : String)
  | setPriceBands (symbol : String) (lowerPrice upperPrice : PositiveInt)
  | clearPriceBands (symbol : String)
  | uncrossAuction (symbol : String)

/-- What the command parser raises: as the event parser, and some `ValueError`s of its own. -/
inductive CommandError
  | shared (error : ParseError)
  | mustBePositive (field : String)
  | displayQtyTooLarge
  | invalidTimeInForce
  | unknownCommandType (commandType : String)
  deriving DecidableEq

/-- The text of an error; `render` gives the text of a list. -/
def CommandError.message (render : List String → String) : CommandError → String
  | .shared error => error.message render
  | .mustBePositive field => field ++ " must be a positive integer"
  | .displayQtyTooLarge => "display_qty must be less than or equal to total_qty"
  | .invalidTimeInForce => "time_in_force must be one of: GTC, IOC, FOK"
  | .unknownCommandType commandType => "unknown command type: " ++ commandType

abbrev ParsedCommand := Except CommandError

/-- A check that events and commands share. -/
def shared {α : Type} (parsed : Parsed α) : ParsedCommand α := parsed.mapError .shared

def requirePositiveInt (data : Dict) (field : String) : ParsedCommand PositiveInt := do
  let parsed ← shared (requireInt data field)
  if h : 0 < parsed then .ok ⟨parsed, h⟩ else .error (.mustBePositive field)

def requireTimeInForce (data : Dict) : ParsedCommand TimeInForceLiteral := do
  match ← shared (getItem data "time_in_force") with
  | .str s => if h : s ∈ timesInForce then .ok ⟨s, h⟩ else .error .invalidTimeInForce
  | .list _ | .dict _ => .error (.shared .unhashable)
  | _ => .error .invalidTimeInForce

/-! The data of each kind of command. -/

def parseLimitOrder (data : Dict) : ParsedCommand TesCommand := do
  shared (requireEventKeys data ["side", "price", "qty", "time_in_force"] "LimitOrder.data")
  pure (.limitOrder (← shared (requireSide data)) (← requirePositiveInt data "price")
    (← requirePositiveInt data "qty") (← requireTimeInForce data) (← shared (optionalSymbol data)))

def parseHiddenOrder (data : Dict) : ParsedCommand TesCommand := do
  shared (requireEventKeys data ["side", "price", "qty"] "HiddenOrder.data")
  pure (.hiddenOrder (← shared (requireSide data)) (← requirePositiveInt data "price")
    (← requirePositiveInt data "qty") (← shared (optionalSymbol data)))

def parseIcebergOrder (data : Dict) : ParsedCommand TesCommand := do
  shared (requireEventKeys data ["side", "price", "total_qty", "display_qty"] "IcebergOrder.data")
  let totalQty ← requirePositiveInt data "total_qty"
  let displayQty ← requirePositiveInt data "display_qty"
  if h : displayQty.1 ≤ totalQty.1 then do
    let side ← shared (requireSide data)
    let price ← requirePositiveInt data "price"
    pure (.icebergOrder side price totalQty displayQty (← shared (optionalSymbol data)) h)
  else .error .displayQtyTooLarge

def parseMarketOrder (data : Dict) : ParsedCommand TesCommand := do
  shared (requireEventKeys data ["side", "qty"] "MarketOrder.data")
  pure (.marketOrder (← shared (requireSide data)) (← requirePositiveInt data "qty")
    (← shared (optionalSymbol data)))

def parseStopMarketOrder (data : Dict) : ParsedCommand TesCommand := do
  shared (requireEventKeys data ["side", "stop_price", "qty"] "StopMarketOrder.data")
  pure (.stopOrder (← shared (requireSide data)) (← requirePositiveInt data "stop_price")
    (← requirePositiveInt data "qty") (← shared (optionalSymbol data)))

def parseStopLimitOrder (data : Dict) : ParsedCommand TesCommand := do
  shared (requireEventKeys data ["side", "stop_price", "limit_price", "qty"] "StopLimitOrder.data")
  pure (.stopLimitOrder (← shared (requireSide data)) (← requirePositiveInt data "stop_price")
    (← requirePositiveInt data "limit_price") (← requirePositiveInt data "qty")
    (← shared (optionalSymbol data)))

def parseCancelOrder (data : Dict) : ParsedCommand TesCommand := do
  shared (requireExactKeys data ["order_id"] "CancelOrder.data")
  pure (.cancelOrder (← requirePositiveInt data "order_id"))

def parseReplaceOrder (data : Dict) : ParsedCommand TesCommand := do
  shared (requireExactKeys data ["order_id", "price", "qty"] "ReplaceOrder.data")
  pure (.replaceOrder (← requirePositiveInt data "order_id") (← requirePositiveInt data "price")
    (← requirePositiveInt data "qty"))

def parseSetTradingPhase (data : Dict) : ParsedCommand TesCommand := do
  shared (requireExactKeys data ["symbol", "phase"] "SetTradingPhase.data")
  pure (.setTradingPhase (← shared (requireSymbol data)) (← shared (requireTradingPhase data)))

def parseHaltSymbol (data : Dict) : ParsedCommand TesCommand := do
  shared (requireExactKeys data ["symbol", "reason"] "HaltSymbol.data")
  let reason ← shared (requireString data "reason")
  pure (.haltSymbol (← shared (requireSymbol data)) reason)

def parseResumeSymbol (data : Dict) : ParsedCommand TesCommand := do
  shared (requireExactKeys data ["symbol"] "ResumeSymbol.data")
  pure (.resumeSymbol (← shared (requireSymbol data)))

def parseSetPriceBands (data : Dict) : ParsedCommand TesCommand := do
  shared (requireExactKeys data ["symbol", "lower_price", "upper_price"] "SetPriceBands.data")
  pure (.setPriceBands (← shared (requireSymbol data)) (← requirePositiveInt data "lower_price")
    (← requirePositiveInt data "upper_price"))

def parseClearPriceBands (data : Dict) : ParsedCommand TesCommand := do
  shared (requireExactKeys data ["symbol"] "ClearPriceBands.data")
  pure (.clearPriceBands (← shared (requireSymbol data)))

def parseUncrossAuction (data : Dict) : ParsedCommand TesCommand := do
  shared (requireEventKeys data [] "UncrossAuction.data")
  pure (.uncrossAuction (← shared (optionalSymbol data)))

/-- The parser of the data of a command type. -/
def parseCommandData (commandType : String) (data : Dict) : ParsedCommand TesCommand :=
  if commandType = "LimitOrder" then parseLimitOrder data
  else if commandType = "HiddenOrder" then parseHiddenOrder data
  else if commandType = "IcebergOrder" then parseIcebergOrder data
  else if commandType = "MarketOrder" then parseMarketOrder data
  else if commandType = "StopMarketOrder" then parseStopMarketOrder data
  else if commandType = "StopLimitOrder" then parseStopLimitOrder data
  else if commandType = "CancelOrder" then parseCancelOrder data
  else if commandType = "ReplaceOrder" then parseReplaceOrder data
  else if commandType = "SetTradingPhase" then parseSetTradingPhase data
  else if commandType = "HaltSymbol" then parseHaltSymbol data
  else if commandType = "ResumeSymbol" then parseResumeSymbol data
  else if commandType = "SetPriceBands" then parseSetPriceBands data
  else if commandType = "ClearPriceBands" then parseClearPriceBands data
  else if commandType = "UncrossAuction" then parseUncrossAuction data
  else .error (.unknownCommandType commandType)

def parseCommand (raw : Value) : ParsedCommand TesCommand := do
  let command ← shared (requireDict raw "command")
  shared (requireExactKeys command ["type", "data"] "command")
  let commandType ← shared (requireString command "type")
  let data ← shared (requireDict (← shared (getItem command "data")) "command.data")
  parseCommandData commandType data

end CommandModels
end Tes
