import Tes.Events.Models

/-! Event models written out as dicts and as lines of JSON, and read back. -/
namespace Tes
open Json EventModels

namespace TesEngineEvent

/-- `event.type`. -/
def type : TesEngineEvent → String
  | orderAccepted .. => "OrderAccepted"
  | hiddenOrderAccepted .. => "HiddenOrderAccepted"
  | icebergOrderAccepted .. => "IcebergOrderAccepted"
  | icebergReplenished .. => "IcebergReplenished"
  | orderRejected .. => "OrderRejected"
  | orderCanceled .. => "OrderCanceled"
  | cancelRejected .. => "CancelRejected"
  | tradeExecuted .. => "TradeExecuted"
  | orderPartiallyFilled .. => "OrderPartiallyFilled"
  | orderFilled .. => "OrderFilled"
  | orderExpired .. => "OrderExpired"
  | stopOrderAccepted .. => "StopOrderAccepted"
  | stopOrderTriggered .. => "StopOrderTriggered"
  | topOfBook .. => "TopOfBook"
  | auctionStarted .. => "AuctionStarted"
  | auctionEnded .. => "AuctionEnded"
  | auctionUncross .. => "AuctionUncross"
  | symbolHalted .. => "SymbolHalted"
  | symbolResumed .. => "SymbolResumed"
  | priceBandUpdated .. => "PriceBandUpdated"
  | circuitBreakerTriggered .. => "CircuitBreakerTriggered"
  | indicativePriceUpdated .. => "IndicativePriceUpdated"

def symbol : TesEngineEvent → String
  | orderAccepted _ _ _ _ symbol
  | hiddenOrderAccepted _ _ _ _ symbol
  | icebergOrderAccepted _ _ _ _ _ _ _ _ symbol
  | icebergReplenished _ _ _ _ _ _ _ symbol
  | orderRejected _ _ _ _ symbol
  | orderCanceled _ symbol
  | cancelRejected _ _ symbol
  | tradeExecuted _ _ _ _ symbol
  | orderPartiallyFilled _ _ _ symbol
  | orderFilled _ _ symbol
  | orderExpired _ symbol
  | stopOrderAccepted _ _ _ _ _ symbol
  | stopOrderTriggered _ _ _ _ _ _ symbol
  | topOfBook _ _ symbol
  | auctionStarted symbol _
  | auctionEnded symbol _
  | auctionUncross symbol _ _ _
  | symbolHalted symbol _
  | symbolResumed symbol
  | priceBandUpdated symbol _ _
  | circuitBreakerTriggered symbol _ _
  | indicativePriceUpdated symbol _ _ _ => symbol

/-- A kind whose parser demands the symbol. -/
def demandsSymbol : TesEngineEvent → Prop
  | auctionStarted .. | auctionEnded .. | auctionUncross .. | symbolHalted .. | symbolResumed ..
  | priceBandUpdated .. | circuitBreakerTriggered .. | indicativePriceUpdated .. => True
  | _ => False

end TesEngineEvent

namespace EventModels

def optionalInt : Option ℤ → Value
  | none => .null
  | some n => .int n

/-- `asdict(event.data)`. -/
def asdict : TesEngineEvent → Dict
  | .orderAccepted orderId side price qty symbol =>
    [("order_id", .int orderId), ("side", .str side), ("price", .int price), ("qty", .int qty),
      ("symbol", .str symbol)]
  | .hiddenOrderAccepted orderId side price totalQty symbol =>
    [("order_id", .int orderId), ("side", .str side), ("price", .int price),
      ("total_qty", .int totalQty), ("symbol", .str symbol)]
  | .icebergOrderAccepted orderId side price totalQty displayQty reserveQty hiddenRemaining
      currentVisibleQty symbol =>
    [("order_id", .int orderId), ("side", .str side), ("price", .int price),
      ("total_qty", .int totalQty), ("display_qty", .int displayQty),
      ("reserve_qty", .int reserveQty), ("hidden_remaining", .int hiddenRemaining),
      ("current_visible_qty", .int currentVisibleQty), ("symbol", .str symbol)]
  | .icebergReplenished orderId side price replenishedQty reserveQty hiddenRemaining
      totalRemainingQty symbol =>
    [("order_id", .int orderId), ("side", .str side), ("price", .int price),
      ("replenished_qty", .int replenishedQty), ("reserve_qty", .int reserveQty),
      ("hidden_remaining", .int hiddenRemaining), ("total_remaining_qty", .int totalRemainingQty),
      ("symbol", .str symbol)]
  | .orderRejected side price qty reason symbol =>
    [("side", .str side), ("price", .int price), ("qty", .int qty), ("reason", .str reason),
      ("symbol", .str symbol)]
  | .orderCanceled orderId symbol => [("order_id", .int orderId), ("symbol", .str symbol)]
  | .cancelRejected orderId reason symbol =>
    [("order_id", .int orderId), ("reason", .str reason), ("symbol", .str symbol)]
  | .tradeExecuted price qty makerOrderId takerOrderId symbol =>
    [("price", .int price), ("qty", .int qty), ("maker_order_id", .int makerOrderId),
      ("taker_order_id", .int takerOrderId), ("symbol", .str symbol)]
  | .orderPartiallyFilled orderId lastFillQty remainingQty symbol =>
    [("order_id", .int orderId), ("last_fill_qty", .int lastFillQty),
      ("remaining_qty", .int remainingQty), ("symbol", .str symbol)]
  | .orderFilled orderId lastFillQty symbol =>
    [("order_id", .int orderId), ("last_fill_qty", .int lastFillQty), ("symbol", .str symbol)]
  | .orderExpired orderId symbol => [("order_id", .int orderId), ("symbol", .str symbol)]
  | .stopOrderAccepted orderId side stopPrice qty limitPrice symbol =>
    [("order_id", .int orderId), ("side", .str side), ("stop_price", .int stopPrice),
      ("qty", .int qty), ("limit_price", optionalInt limitPrice), ("symbol", .str symbol)]
  | .stopOrderTriggered orderId resultingOrderId side stopPrice qty limitPrice symbol =>
    [("order_id", .int orderId), ("resulting_order_id", .int resultingOrderId),
      ("side", .str side), ("stop_price", .int stopPrice), ("qty", .int qty),
      ("limit_price", optionalInt limitPrice), ("symbol", .str symbol)]
  | .topOfBook bestBid bestAsk symbol =>
    [("best_bid", optionalInt bestBid), ("best_ask", optionalInt bestAsk), ("symbol", .str symbol)]
  | .auctionStarted symbol phase | .auctionEnded symbol phase =>
    [("symbol", .str symbol), ("phase", .str phase)]
  | .auctionUncross symbol price qty imbalance =>
    [("symbol", .str symbol), ("price", .int price), ("qty", .int qty),
      ("imbalance", .int imbalance)]
  | .symbolHalted symbol reason => [("symbol", .str symbol), ("reason", .str reason)]
  | .symbolResumed symbol => [("symbol", .str symbol)]
  | .priceBandUpdated symbol lowerPrice upperPrice =>
    [("symbol", .str symbol), ("lower_price", optionalInt lowerPrice),
      ("upper_price", optionalInt upperPrice)]
  | .circuitBreakerTriggered symbol price reason =>
    [("symbol", .str symbol), ("price", .int price), ("reason", .str reason)]
  | .indicativePriceUpdated symbol price qty imbalance =>
    [("symbol", .str symbol), ("price", optionalInt price), ("qty", .int qty),
      ("imbalance", .int imbalance)]

/-- The data of an event without a default symbol. -/
def dataDict (event : TesEngineEvent) : Dict :=
  if event.symbol = defaultSymbol then
    (asdict event).filter fun item => item.1 ≠ "symbol"
  else asdict event

def serializeEvent (event : TesEngineEvent) : Value :=
  .dict [("type", .str event.type), ("data", .dict (dataDict event))]

def serializeEvents (events : List TesEngineEvent) : List Value := events.map serializeEvent

/-! Reading the items of a dict one after the other. -/
section Items
variable {key field : String} {rest : Dict}

@[simp] theorem ok_bind {α β : Type} (a : α) (f : α → Parsed β) : (Except.ok a >>= f) = f a := rfl

@[simp] theorem error_bind {α β : Type} (error : ParseError) (f : α → Parsed β) :
    (Except.error error >>= f) = Except.error error := rfl

theorem get_head (key : String) (value : Value) (rest : Dict) :
    Dict.get ((key, value) :: rest) key = some value := by
  unfold Dict.get
  rw [List.lookup_cons, beq_self_eq_true]

theorem get_tail (h : field ≠ key) (value : Value) (rest : Dict) :
    Dict.get ((key, value) :: rest) field = Dict.get rest field := by
  unfold Dict.get
  rw [List.lookup_cons, beq_false_of_ne h]

theorem getItem_head (key : String) (value : Value) (rest : Dict) :
    getItem ((key, value) :: rest) key = .ok value := by
  unfold getItem
  rw [get_head]

theorem getItem_tail (h : field ≠ key) (value : Value) (rest : Dict) :
    getItem ((key, value) :: rest) field = getItem rest field := by
  unfold getItem
  rw [get_tail h]

@[simp] theorem requireInt_head (n : ℤ) : requireInt ((key, .int n) :: rest) key = .ok n := by
  unfold requireInt
  rw [getItem_head]
  rfl

@[simp] theorem requireInt_tail (h : field ≠ key) (value : Value) :
    requireInt ((key, value) :: rest) field = requireInt rest field := by
  unfold requireInt
  rw [getItem_tail h]

@[simp] theorem requireOptionalInt_head (n : Option ℤ) :
    requireOptionalInt ((key, optionalInt n) :: rest) key = .ok n := by
  unfold requireOptionalInt
  rw [getItem_head]
  cases n <;> rfl

@[simp] theorem requireOptionalInt_tail (h : field ≠ key) (value : Value) :
    requireOptionalInt ((key, value) :: rest) field = requireOptionalInt rest field := by
  unfold requireOptionalInt
  rw [getItem_tail h]

@[simp] theorem requireString_head (s : String) :
    requireString ((key, .str s) :: rest) key = .ok s := by
  unfold requireString
  rw [getItem_head]
  rfl

@[simp] theorem requireString_tail (h : field ≠ key) (value : Value) :
    requireString ((key, value) :: rest) field = requireString rest field := by
  unfold requireString
  rw [getItem_tail h]

@[simp] theorem requireLiteral_head {allowed : List String} {error : ParseError}
    (text : Literal allowed) :
    requireLiteral allowed error ((key, .str text.1) :: rest) key = .ok text := by
  unfold requireLiteral
  rw [getItem_head]
  exact dif_pos text.2

@[simp] theorem requireLiteral_tail {allowed : List String} {error : ParseError}
    (h : field ≠ key) (value : Value) :
    requireLiteral allowed error ((key, value) :: rest) field =
      requireLiteral allowed error rest field := by
  unfold requireLiteral
  rw [getItem_tail h]

@[simp] theorem optionalSymbol_nil : optionalSymbol [] = .ok defaultSymbol := rfl

@[simp] theorem optionalSymbol_head (s : String) :
    optionalSymbol (("symbol", .str s) :: rest) = .ok s := by
  unfold optionalSymbol
  rw [get_head]

@[simp] theorem optionalSymbol_tail (h : "symbol" ≠ key) (value : Value) :
    optionalSymbol ((key, value) :: rest) = optionalSymbol rest := by
  unfold optionalSymbol
  rw [get_tail h]

end Items

theorem parseEvent_dict (eventType : String) (data : Dict) :
    parseEvent (.dict [("type", .str eventType), ("data", .dict data)]) =
      parseData eventType data := rfl

/-! What each parser reads is settled by rewriting. -/
attribute [simp] HasKeys requireEventKeys requireExactKeys requireSide requireRejectReason
  requireTradingPhase requireSymbol parseData parseOrderAccepted parseHiddenOrderAccepted
  parseIcebergOrderAccepted parseIcebergReplenished parseOrderRejected parseOrderCanceled
  parseCancelRejected parseTradeExecuted parseStopOrderAccepted parseStopOrderTriggered
  parseTopOfBook parseOrderPartiallyFilled parseOrderFilled parseOrderExpired parseSymbolHalted
  parseSymbolResumed parsePriceBandUpdated parseCircuitBreakerTriggered parseAuctionStarted
  parseAuctionEnded parseAuctionUncross parseIndicativePriceUpdated

/-- An event parses from all of its data. -/
theorem parseData_asdict (event : TesEngineEvent) :
    parseData event.type (asdict event) = .ok event := by
  cases event <;> simp [asdict, TesEngineEvent.type]

/-- Without its symbol an event of the default symbol parses unless the symbol is demanded. -/
theorem parseData_without_symbol {event : TesEngineEvent} (h : event.symbol = defaultSymbol) :
    parseData event.type ((asdict event).filter fun item => item.1 ≠ "symbol") = .ok event ↔
      ¬event.demandsSymbol := by
  cases event <;> simp only [TesEngineEvent.symbol] at h <;>
    simp [asdict, TesEngineEvent.type, TesEngineEvent.demandsSymbol, h]

/-- An event is lost in a dict if its symbol is dropped there and demanded when it is read. -/
def LosesSymbol (event : TesEngineEvent) : Prop :=
  event.symbol = defaultSymbol ∧ event.demandsSymbol

theorem parseEvent_serializeEvent (event : TesEngineEvent) :
    parseEvent (serializeEvent event) = .ok event ↔ ¬LosesSymbol event := by
  unfold serializeEvent dataDict LosesSymbol
  rw [parseEvent_dict]
  split_ifs with hsymbol
  · rw [parseData_without_symbol hsymbol, and_iff_right hsymbol]
  · rw [parseData_asdict]
    exact iff_of_true rfl fun h => hsymbol h.1

theorem parseEvents_serializeEvents (events : List TesEngineEvent) :
    parseEvents (serializeEvents events) = .ok events ↔ ∀ event ∈ events, ¬LosesSymbol event := by
  unfold parseEvents serializeEvents
  induction events with
  | nil => exact iff_of_true rfl fun event h => nomatch h
  | cons event rest ih =>
    rw [List.map_cons, List.mapM_cons, List.forall_mem_cons, ← parseEvent_serializeEvent, ← ih]
    cases hevent : parseEvent (serializeEvent event) with
    | error e => simp
    | ok event' =>
      cases hrest : (rest.map serializeEvent).mapM parseEvent with
      | error e => simp
      | ok rest' => simp [pure, Except.pure]

/-! Lines of JSON. -/

/-- The JSON encoder and decoder. -/
structure JsonText where
  dumps : Value → List Char
  loads : List Char → Option Value

def writeEventsJsonl (json : JsonText) (events : List TesEngineEvent) : List Char :=
  (serializeEvents events).flatMap fun event => json.dumps event ++ ['\n']

/-- The lines that a text file yields, after what it has read of the current one. -/
def linesFrom (current : List Char) : List Char → List (List Char)
  | [] => if current = [] then [] else [current]
  | '\n' :: rest => current :: linesFrom [] rest
  | '\r' :: '\n' :: rest => current :: linesFrom [] rest
  | '\r' :: rest => current :: linesFrom [] rest
  | c :: rest => linesFrom (current ++ [c]) rest

def isSpace (c : Char) : Bool :=
  9 ≤ c.toNat ∧ c.toNat ≤ 13 ∨ 28 ≤ c.toNat ∧ c.toNat ≤ 32 ∨
    8192 ≤ c.toNat ∧ c.toNat ≤ 8202 ∨
    c.toNat ∈ [133, 160, 5760, 8232, 8233, 8239, 8287, 12288]

def strip (line : List Char) : List Char :=
  ((line.dropWhile isSpace).reverse.dropWhile isSpace).reverse

/-- What the reader raises. -/
inductive JsonlError
  | emptyLine (lineNumber : ℕ)
  | invalidJson (lineNumber : ℕ)
  | notObject (lineNumber : ℕ)
  | event (error : ParseError)

def JsonlError.message (render : List String → String) : JsonlError → String
  | .emptyLine n => "malformed JSONL at line " ++ toString n ++ ": empty line"
  | .invalidJson n => "malformed JSONL at line " ++ toString n ++ ": invalid JSON"
  | .notObject n => "malformed JSONL at line " ++ toString n ++ ": event must be a JSON object"
  | .event error => error.message render

def readLine (json : JsonText) (lineNumber : ℕ) (line : List Char) : Except JsonlError Value :=
  if strip line = [] then .error (.emptyLine lineNumber)
  else match json.loads (strip line) with
    | none => .error (.invalidJson lineNumber)
    | some (.dict items) => .ok (.dict items)
    | some _ => .error (.notObject lineNumber)

def readLines (json : JsonText) : ℕ → List (List Char) → Except JsonlError (List Value)
  | _, [] => .ok []
  | lineNumber, line :: rest => do
    let event ← readLine json lineNumber line
    let events ← readLines json (lineNumber + 1) rest
    pure (event :: events)

def readEventsJsonl (json : JsonText) (text : List Char) :
    Except JsonlError (List TesEngineEvent) := do
  let raws ← readLines json 1 (linesFrom [] text)
  (parseEvents raws).mapError .event

/-- The encoder writes the value as one line between braces, which the decoder reads back. -/
structure JsonText.Faithful (json : JsonText) (value : Value) : Prop where
  loads_dumps : json.loads (json.dumps value) = some value
  one_line : ∀ c ∈ json.dumps value, c ≠ '\n' ∧ c ≠ '\r'
  braces : ∃ body, json.dumps value = '\x7b' :: body ++ ['\x7d']

section Lines
variable {json : JsonText} {value : Value}

/-- A line without breaks is read up to the break that ends it. -/
theorem linesFrom_line {line : List Char} (h : ∀ c ∈ line, c ≠ '\n' ∧ c ≠ '\r')
    (current rest : List Char) :
    linesFrom current (line ++ '\n' :: rest) = (current ++ line) :: linesFrom [] rest := by
  induction line generalizing current with
  | nil => rw [List.nil_append, linesFrom, List.append_nil]
  | cons c line ih =>
    obtain ⟨⟨hnewline, hreturn⟩, hline⟩ := List.forall_mem_cons.mp h
    have hstep : linesFrom current (c :: (line ++ '\n' :: rest)) =
        linesFrom (current ++ [c]) (line ++ '\n' :: rest) :=
      linesFrom.eq_5 _ _ _ hnewline (fun _ h _ => hreturn h) hreturn
    rw [List.cons_append, hstep, ih hline, List.append_assoc]
    rfl

theorem JsonText.Faithful.strip_dumps (h : json.Faithful value) :
    strip (json.dumps value) = json.dumps value := by
  obtain ⟨body, hbody⟩ := h.braces
  rw [hbody]
  unfold strip
  have hopen : ∀ rest, ('\x7b' :: rest).dropWhile isSpace = '\x7b' :: rest := fun rest => rfl
  have hclose : ∀ rest, ('\x7d' :: rest).dropWhile isSpace = '\x7d' :: rest := fun rest => rfl
  rw [List.cons_append, hopen, ← List.cons_append, List.reverse_append]
  rw [List.reverse_singleton, List.singleton_append, hclose, List.reverse_cons, List.reverse_reverse]

/-- A written line reads back. -/
theorem readLine_dumps {items : Dict} (h : json.Faithful (.dict items)) (lineNumber : ℕ) :
    readLine json lineNumber (json.dumps (.dict items)) = .ok (.dict items) := by
  unfold readLine
  obtain ⟨body, hbody⟩ := h.braces
  have hnonempty : json.dumps (.dict items) ≠ [] := by
    rw [hbody]
    exact List.cons_ne_nil _ _
  rw [h.strip_dumps, if_neg hnonempty, h.loads_dumps]

theorem readLines_written {events : List TesEngineEvent}
    (h : ∀ event ∈ events, json.Faithful (serializeEvent event)) (lineNumber : ℕ) :
    readLines json lineNumber (linesFrom [] (writeEventsJsonl json events)) =
      .ok (serializeEvents events) := by
  induction events generalizing lineNumber with
  | nil => rfl
  | cons event rest ih =>
    obtain ⟨hevent, hrest⟩ := List.forall_mem_cons.mp h
    have hwritten : writeEventsJsonl json (event :: rest) =
        json.dumps (serializeEvent event) ++ '\n' :: writeEventsJsonl json rest := by
      simp [writeEventsJsonl, serializeEvents]
    rw [hwritten, linesFrom_line hevent.one_line, List.nil_append, readLines]
    have hline : readLine json lineNumber (json.dumps (serializeEvent event)) =
        .ok (serializeEvent event) := readLine_dumps hevent lineNumber
    rw [hline, ih hrest]
    rfl

end Lines

/-- A dict of an event, and a file of events, read back as written exactly if no event loses its
symbol. -/
theorem events_round_trip_iff (json : JsonText) (events : List TesEngineEvent)
    (h : ∀ event ∈ events, json.Faithful (serializeEvent event)) :
    (∀ event, parseEvent (serializeEvent event) = .ok event ↔ ¬LosesSymbol event) ∧
      (readEventsJsonl json (writeEventsJsonl json events) = .ok events ↔
        ∀ event ∈ events, ¬LosesSymbol event) := by
  refine ⟨parseEvent_serializeEvent, ?_⟩
  rw [← parseEvents_serializeEvents]
  unfold readEventsJsonl
  rw [readLines_written h]
  show (parseEvents (serializeEvents events)).mapError JsonlError.event = .ok events ↔ _
  cases parseEvents (serializeEvents events) with
  | error error => simp [Except.mapError]
  | ok events' => simp [Except.mapError]

/-- The line of a halt of symbol `A`. -/
def haltedLine : List Char :=
  ("\x7b\"type\":\"SymbolHalted\",\"data\":\x7b\"symbol\":\"A\",\"reason\":\"News\"\x7d" ++
    "\x7d").toList

/-- It reads back. -/
theorem events_round_trip_halted :
    let event := TesEngineEvent.symbolHalted "A" "News"
    let json : JsonText :=
      { dumps := fun _ => haltedLine
        loads := fun line => if line = haltedLine then some (serializeEvent event) else none }
    readEventsJsonl json (writeEventsJsonl json [event]) = .ok [event] := by
  intro event json
  have hfaithful : json.Faithful (serializeEvent event) := by
    constructor
    · show (if haltedLine = haltedLine then some (serializeEvent event) else none) = _
      rw [if_pos rfl]
    · exact List.forall_iff_forall_mem.mp (by decide)
    · exact ⟨haltedLine.tail.dropLast, by decide⟩
  refine (events_round_trip_iff json [event] (List.forall_mem_singleton.mpr hfaithful)).2.mpr ?_
  refine List.forall_mem_singleton.mpr fun hloses => ?_
  have hsymbol : "A" = "DEFAULT" := hloses.1
  revert hsymbol
  decide

/-- The dict of a resumption of the default symbol is refused. -/
theorem symbolResumed_not_round_trip :
    parseEvent (serializeEvent (.symbolResumed "DEFAULT")) ≠ .ok (.symbolResumed "DEFAULT") := by
  have hrefused : parseEvent (serializeEvent (.symbolResumed "DEFAULT")) =
      .error (.exactKeys "SymbolResumed.data" ["symbol"] []) := by
    decide
  rw [hrefused]
  exact fun h => nomatch h

end EventModels
end Tes
