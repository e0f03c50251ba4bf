import Tes.Engine.Operations
import Tes.Events.Serialization

/-! Events of the engine as the Python side receives them: the binding writes each as a dict,
and the adapter parses the dicts into event models. -/
namespace Tes
open Json EventModels

namespace Bindings

def sideToString : Side → String
  | .bid => "BUY"
  | .ask => "SELL"

def tradingPhaseToString : TradingPhase → String
  | .continuous => "Continuous"
  | .openingAuction => "OpeningAuction"
  | .closingAuction => "ClosingAuction"
  | .halted => "Halted"

def rejectReasonToString : RejectReason → String
  | .invalidPrice => "InvalidPrice"
  | .invalidQuantity => "InvalidQuantity"
  | .unknownOrderId => "UnknownOrderId"
  | .noLiquidity => "NoLiquidity"
  | .insufficientCash => "InsufficientCash"
  | .insufficientPosition => "InsufficientPosition"
  | .wrongAccount => "WrongAccount"
  | .insufficientBuyingPower => "InsufficientBuyingPower"
  | .shortSellingDisabled => "ShortSellingDisabled"
  | .marginRequirementFailed => "MarginRequirementFailed"
  | .maintenanceMarginBreached => "MaintenanceMarginBreached"
  | .symbolHalted => "SymbolHalted"
  | .priceBandViolation => "PriceBandViolation"
  | .circuitBreakerViolation => "CircuitBreakerViolation"
  | .auctionPriceOutOfBand => "AuctionPriceOutOfBand"

/-- A price that may be missing. -/
def priceToPy : Option ℤ → Value
  | some ticks => .int ticks
  | none => .null

def idToPy (id : OrderId) : Value := .int id

/-- The dict of an event. -/
def eventDict (type : String) (data : Dict) : Value :=
  .dict [("type", .str type), ("data", .dict data)]

def eventToPy : Event → Value
  | .orderAccepted id side price qty symbol =>
    eventDict "OrderAccepted"
      [("order_id", idToPy id), ("side", .str (sideToString side)), ("price", .int price),
        ("qty", .int qty), ("symbol", .str symbol)]
  | .hiddenOrderAccepted id side price totalQty symbol =>
    eventDict "HiddenOrderAccepted"
      [("order_id", idToPy id), ("side", .str (sideToString side)), ("price", .int price),
        ("total_qty", .int totalQty), ("symbol", .str symbol)]
  | .icebergOrderAccepted id side price totalQty displayQty reserveQty currentVisibleQty symbol =>
    eventDict "IcebergOrderAccepted"
      [("order_id", idToPy id), ("side", .str (sideToString side)), ("price", .int price),
        ("total_qty", .int totalQty), ("display_qty", .int displayQty),
        ("reserve_qty", .int reserveQty), ("hidden_remaining", .int reserveQty),
        ("current_visible_qty", .int currentVisibleQty), ("symbol", .str symbol)]
  | .icebergReplenished clip =>
    eventDict "IcebergReplenished"
      [("order_id", idToPy clip.id), ("side", .str (sideToString clip.side)),
        ("price", .int clip.price), ("replenished_qty", .int clip.replenishedQty),
        ("reserve_qty", .int clip.reserveQty), ("hidden_remaining", .int clip.reserveQty),
        ("total_remaining_qty", .int clip.totalRemainingQty), ("symbol", .str clip.symbol)]
  | .orderRejected side price qty reason symbol =>
    eventDict "OrderRejected"
      [("side", .str (sideToString side)), ("price", .int price), ("qty", .int qty),
        ("reason", .str (rejectReasonToString reason)), ("symbol", .str symbol)]
  | .orderCanceled id symbol =>
    eventDict "OrderCanceled" [("order_id", idToPy id), ("symbol", .str symbol)]
  | .cancelRejected id reason symbol =>
    eventDict "CancelRejected"
      [("order_id", idToPy id), ("reason", .str (rejectReasonToString reason)),
        ("symbol", .str symbol)]
  | .tradeExecuted takerId makerId _ price qty symbol =>
    eventDict "TradeExecuted"
      [("price", .int price), ("qty", .int qty), ("maker_order_id", idToPy makerId),
        ("taker_order_id", idToPy takerId), ("symbol", .str symbol)]
  | .orderPartiallyFilled id lastFillQty remainingQty symbol =>
    eventDict "OrderPartiallyFilled"
      [("order_id", idToPy id), ("last_fill_qty", .int lastFillQty),
        ("remaining_qty", .int remainingQty), ("symbol", .str symbol)]
  | .orderFilled id lastFillQty symbol =>
    eventDict "OrderFilled"
      [("order_id", idToPy id), ("last_fill_qty", .int lastFillQty), ("symbol", .str symbol)]
  | .orderExpired id symbol =>
    eventDict "OrderExpired" [("order_id", idToPy id), ("symbol", .str symbol)]
  | .stopOrderAccepted id side stopPrice qty limitPrice symbol =>
    eventDict "StopOrderAccepted"
      [("order_id", idToPy id), ("side", .str (sideToString side)),
        ("stop_price", .int stopPrice), ("qty", .int qty), ("limit_price", priceToPy limitPrice),
        ("symbol", .str symbol)]
  | .stopOrderTriggered id resultingOrderId side stopPrice qty limitPrice symbol =>
    eventDict "StopOrderTriggered"
      [("order_id", idToPy id), ("resulting_order_id", idToPy resultingOrderId),
        ("side", .str (sideToString side)), ("stop_price", .int stopPrice), ("qty", .int qty),
        ("limit_price", priceToPy limitPrice), ("symbol", .str symbol)]
  | .topOfBook bestBid bestAsk symbol =>
    eventDict "TopOfBook"
      [("best_bid", priceToPy bestBid), ("best_ask", priceToPy bestAsk), ("symbol", .str symbol)]
  | .symbolHalted symbol reason =>
    eventDict "SymbolHalted" [("symbol", .str symbol), ("reason", .str reason)]
  | .symbolResumed symbol => eventDict "SymbolResumed" [("symbol", .str symbol)]
  | .priceBandUpdated symbol lowerPrice upperPrice =>
    eventDict "PriceBandUpdated"
      [("symbol", .str symbol), ("lower_price", priceToPy lowerPrice),
        ("upper_price", priceToPy upperPrice)]
  | .circuitBreakerTriggered symbol price reason =>
    eventDict "CircuitBreakerTriggered"
      [("symbol", .str symbol), ("price", .int price), ("reason", .str reason)]
  | .auctionStarted symbol phase =>
    eventDict "AuctionStarted"
      [("symbol", .str symbol), ("phase", .str (tradingPhaseToString phase))]
  | .auctionEnded symbol phase =>
    eventDict "AuctionEnded"
      [("symbol", .str symbol), ("phase", .str (tradingPhaseToString phase))]
  | .auctionUncross symbol price qty imbalance =>
    eventDict "AuctionUncross"
      [("symbol", .str symbol), ("price", .int price), ("qty", .int qty),
        ("imbalance", .int imbalance)]
  | .indicativePriceUpdated symbol price qty imbalance =>
    eventDict "IndicativePriceUpdated"
      [("symbol", .str symbol), ("price", priceToPy price), ("qty", .int qty),
        ("imbalance", .int imbalance)]

def eventsToDicts (events : List Event) : List Value := events.map eventToPy

/-! The spellings of the binding are the literals of the models. -/

def sideLiteral (side : Side) : SideLiteral :=
  ⟨sideToString side, by cases side <;> decide⟩

def tradingPhaseLiteral (phase : TradingPhase) : TradingPhaseLiteral :=
  ⟨tradingPhaseToString phase, by cases phase <;> decide⟩

def rejectReasonLiteral (reason : RejectReason) : RejectReasonLiteral :=
  ⟨rejectReasonToString reason, by cases reason <;> decide⟩

theorem sideLiteral_injective : Function.Injective sideLiteral := by
  intro side side' h
  have htext := congrArg Subtype.val h
  revert htext
  cases side <;> cases side' <;> simp [sideLiteral, sideToString]

theorem tradingPhaseLiteral_injective : Function.Injective tradingPhaseLiteral := by
  intro phase phase' h
  have htext := congrArg Subtype.val h
  revert htext
  cases phase <;> cases phase' <;> simp [tradingPhaseLiteral, tradingPhaseToString]

theorem rejectReasonLiteral_injective : Function.Injective rejectReasonLiteral := by
  intro reason reason' h
  have htext := congrArg Subtype.val h
  revert htext
  cases reason <;> cases reason' <;> simp [rejectReasonLiteral, rejectReasonToString]

/-- The model of an event. -/
def model : Event → TesEngineEvent
  | .orderAccepted id side price qty symbol =>
    .orderAccepted id (sideLiteral side) price qty symbol
  | .hiddenOrderAccepted id side price totalQty symbol =>
    .hiddenOrderAccepted id (sideLiteral side) price totalQty symbol
  | .icebergOrderAccepted id side price totalQty displayQty reserveQty currentVisibleQty symbol =>
    .icebergOrderAccepted id (sideLiteral side) price totalQty displayQty reserveQty reserveQty
      currentVisibleQty symbol
  | .icebergReplenished clip =>
    .icebergReplenished clip.id (sideLiteral clip.side) clip.price clip.replenishedQty
      clip.reserveQty clip.reserveQty clip.totalRemainingQty clip.symbol
  | .orderRejected side price qty reason symbol =>
    .orderRejected (sideLiteral side) price qty (rejectReasonLiteral reason) symbol
  | .orderCanceled id symbol => .orderCanceled id symbol
  | .cancelRejected id reason symbol => .cancelRejected id (rejectReasonLiteral reason) symbol
  | .tradeExecuted takerId makerId _ price qty symbol =>
    .tradeExecuted price qty makerId takerId symbol
  | .orderPartiallyFilled id lastFillQty remainingQty symbol =>
    .orderPartiallyFilled id lastFillQty remainingQty symbol
  | .orderFilled id lastFillQty symbol => .orderFilled id lastFillQty symbol
  | .orderExpired id symbol => .orderExpired id symbol
  | .stopOrderAccepted id side stopPrice qty limitPrice symbol =>
    .stopOrderAccepted id (sideLiteral side) stopPrice qty limitPrice symbol
  | .stopOrderTriggered id resultingOrderId side stopPrice qty limitPrice symbol =>
    .stopOrderTriggered id resultingOrderId (sideLiteral side) stopPrice qty limitPrice symbol
  | .topOfBook bestBid bestAsk symbol => .topOfBook bestBid bestAsk symbol
  | .symbolHalted symbol reason => .symbolHalted symbol reason
  | .symbolResumed symbol => .symbolResumed symbol
  | .priceBandUpdated symbol lowerPrice upperPrice => .priceBandUpdated symbol lowerPrice upperPrice
  | .circuitBreakerTriggered symbol price reason => .circuitBreakerTriggered symbol price reason
  | .auctionStarted symbol phase => .auctionStarted symbol (tradingPhaseLiteral phase)
  | .auctionEnded symbol phase => .auctionEnded symbol (tradingPhaseLiteral phase)
  | .auctionUncross symbol price qty imbalance => .auctionUncross symbol price qty imbalance
  | .indicativePriceUpdated symbol price qty imbalance =>
    .indicativePriceUpdated symbol price qty imbalance

theorem priceToPy_eq (price : Option ℤ) : priceToPy price = optionalInt price := by
  cases price <;> rfl

/-- The binding writes all of the data of the model. -/
theorem eventToPy_eq (event : Event) :
    eventToPy event = eventDict (model event).type (asdict (model event)) := by
  cases event <;> simp only [eventToPy, priceToPy_eq] <;> rfl

theorem parseEvent_eventToPy (event : Event) : parseEvent (eventToPy event) = .ok (model event) := by
  rw [eventToPy_eq]
  exact parseData_asdict (model event)

/-- An event without the side of its taker. -/
def withoutTakerSide : Event → Event
  | .tradeExecuted takerId makerId _ price qty symbol =>
    .tradeExecuted takerId makerId .bid price qty symbol
  | event => event

theorem model_withoutTakerSide (event : Event) : model (withoutTakerSide event) = model event := by
  cases event <;> rfl

/-- The model tells everything about an event but the side of its taker. -/
theorem model_eq_iff (event event' : Event) :
    model event = model event' ↔ withoutTakerSide event = withoutTakerSide event' := by
  constructor
  · intro h
    cases event <;> cases event' <;> simp only [model, reduceCtorEq] at h
    case icebergReplenished.icebergReplenished clip clip' =>
      cases clip
      cases clip'
      simp_all [withoutTakerSide, sideLiteral_injective.eq_iff]
    all_goals
      simp_all [withoutTakerSide, sideLiteral_injective.eq_iff,
        tradingPhaseLiteral_injective.eq_iff, rejectReasonLiteral_injective.eq_iff]
  · intro h
    rw [← model_withoutTakerSide event, h, model_withoutTakerSide]

theorem parseEvents_eventsToDicts (events : List Event) :
    parseEvents (eventsToDicts events) = .ok (events.map model) := by
  unfold parseEvents eventsToDicts
  induction events with
  | nil => rfl
  | cons event rest ih =>
    rw [List.map_cons, List.mapM_cons, parseEvent_eventToPy, ih]
    rfl

end Bindings

/-- A command of the Python side. -/
inductive TesCommand
  | limitOrder (side : Side) (price qty : ℤ) (timeInForce : TimeInForce) (symbol : Symbol)
  | hiddenOrder (side : Side) (price qty : ℤ) (symbol : Symbol)
  | icebergOrder (side : Side) (price totalQty displayQty : ℤ) (symbol : Symbol)
  | marketOrder (side : Side) (qty : ℤ) (symbol : Symbol)
  | stopOrder (side : Side) (stopPrice qty : ℤ) (symbol : Symbol)
  | stopLimitOrder (side : Side) (stopPrice limitPrice qty : ℤ) (symbol : Symbol)
  | cancelOrder (orderId : OrderId)
  | replaceOrder (orderId : OrderId) (price qty : ℤ)
  | setTradingPhase (symbol : Symbol) (phase : TradingPhase)
  | haltSymbol (symbol : Symbol) (reason : String)
  | resumeSymbol (symbol : Symbol)
  | setPriceBands (symbol : Symbol) (lowerPrice upperPrice : ℤ)
  | clearPriceBands (symbol : Symbol)
  | uncrossAuction (symbol : Symbol)

namespace TesCommand

/-- The call of the engine that a command makes, for the default account. -/
def op : TesCommand → Op
  | limitOrder side price qty timeInForce symbol =>
    .placeLimitOrder defaultAccountId symbol side price qty timeInForce
  | hiddenOrder side price qty symbol => .placeHiddenOrder defaultAccountId symbol side price qty
  | icebergOrder side price totalQty displayQty symbol =>
    .placeIcebergOrder defaultAccountId symbol side price totalQty displayQty
  | marketOrder side qty symbol => .placeMarketOrder defaultAccountId symbol side qty
  | stopOrder side stopPrice qty symbol =>
    .placeStopOrder defaultAccountId symbol side stopPrice qty
  | stopLimitOrder side stopPrice limitPrice qty symbol =>
    .placeStopLimitOrder defaultAccountId symbol side stopPrice limitPrice qty
  | cancelOrder orderId => .cancel defaultAccountId orderId
  | replaceOrder orderId price qty => .replaceOrder defaultAccountId orderId price qty
  | setTradingPhase symbol phase => .setTradingPhase symbol phase
  | haltSymbol symbol reason => .haltSymbol symbol reason
  | resumeSymbol symbol => .resumeSymbol symbol
  | setPriceBands symbol lowerPrice upperPrice => .setPriceBands symbol lowerPrice upperPrice
  | clearPriceBands symbol => .clearPriceBands symbol
  | uncrossAuction symbol => .uncross symbol

end TesCommand

/-- Run a command on the engine and parse the events it returns. -/
def executeCommand (command : TesCommand) : Engine (Parsed (List TesEngineEvent)) := do
  let events ← command.op.exec
  pure (parseEvents (Bindings.eventsToDicts events))

/-- Every event crosses the boundary, only the side of its taker is lost, and so a command whose
engine call returns has all of its events parsed. -/
theorem events_cross_boundary :
    (∀ event, ∃ parsed, parseEvent (Bindings.eventToPy event) = .ok parsed ∧
      ∀ event', parseEvent (Bindings.eventToPy event') = .ok parsed ↔
        Bindings.withoutTakerSide event' = Bindings.withoutTakerSide event) ∧
    ∀ (command : TesCommand) (s : MatchingEngine),
      match command.op.exec s with
      | .ok events s' => ∃ parsed, executeCommand command s = .ok (.ok parsed) s' ∧
          List.Forall₂ (fun event parsed => parseEvent (Bindings.eventToPy event) = .ok parsed)
            events parsed
      | .error error s' => executeCommand command s = .error error s' := by
  constructor
  · intro event
    refine ⟨Bindings.model event, Bindings.parseEvent_eventToPy event, fun event' => ?_⟩
    rw [Bindings.parseEvent_eventToPy, Except.ok.injEq, Bindings.model_eq_iff]
  · intro command s
    have hrun : executeCommand command s = (command.op.exec >>= fun events =>
        pure (parseEvents (Bindings.eventsToDicts events))) s := rfl
    rw [hrun]
    change match command.op.exec s with
      | .ok events s' => ∃ parsed, EStateM.bind _ _ s = _ ∧ _
      | .error error s' => EStateM.bind _ _ s = _
    unfold EStateM.bind
    cases command.op.exec s with
    | ok events s' =>
      refine ⟨events.map Bindings.model, ?_, ?_⟩
      · exact congrArg (fun parsed => EStateM.Result.ok parsed s')
          (Bindings.parseEvents_eventsToDicts events)
      · rw [List.forall₂_map_right_iff, List.forall₂_same]
        exact fun event _ => Bindings.parseEvent_eventToPy event
    | error error s' => rfl

end Tes
