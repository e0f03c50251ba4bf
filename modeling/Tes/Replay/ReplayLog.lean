import Tes.Engine.Steps
import Tes.Library.JsonText

/-! The replay log and its JSON text. -/
namespace Tes
open Json Json.Text

inductive ReplayCommand
  | limitOrder (side : Side) (price qty : ℤ) (symbol : Symbol) (timeInForce : TimeInForce)
  | hiddenOrder (side : Side) (price qty : ℤ) (symbol : Symbol)
  | icebergOrder (side : Side) (price totalQty displayQty : ℤ) (symbol : Symbol)
  | marketOrder (side : Side) (qty : ℤ) (symbol : Symbol)
  | cancelOrder (id : OrderId)
  | setTradingPhase (symbol : Symbol) (phase : TradingPhase)
  | haltSymbol (symbol : Symbol) (reason : String)
  | resumeSymbol (symbol : Symbol)
  | setPriceBands (symbol : Symbol) (lowerPrice upperPrice : ℤ)
  | clearPriceBands (symbol : Symbol)
  | auctionUncross (symbol : Symbol)
  deriving DecidableEq

structure ReplayEntry where
  sequence : ℕ
  command : ReplayCommand
  events : List Event

structure ReplayLog where
  entries : List ReplayEntry := []
  nextSequence : ℕ := 0

namespace ReplayLog

def record (log : ReplayLog) (command : ReplayCommand) (events : List Event) : ReplayLog :=
  { entries := log.entries ++ [⟨log.nextSequence, command, events⟩]
    nextSequence := log.nextSequence + 1 }

def escapeChar (c : Char) : List Char :=
  if c = '\\' then ['\\', '\\']
  else if c = '"' then ['\\', '"']
  else if c = '\n' then ['\\', 'n']
  else if c = '\r' then ['\\', 'r']
  else if c = '\t' then ['\\', 't']
  else [c]

def jsonEscape (value : String) : String := String.ofList (value.toList.flatMap escapeChar)

end ReplayLog

/-- The name of the type of an event. -/
def eventTypeName : Event → String
  | .orderAccepted .. => "OrderAccepted"
  | .hiddenOrderAccepted .. => "HiddenOrderAccepted"
  | .icebergOrderAccepted .. => "IcebergOrderAccepted"
  | .icebergReplenished .. => "IcebergReplenished"
  | .orderRejected .. => "OrderRejected"
  | .orderCanceled .. => "OrderCanceled"
  | .cancelRejected .. => "CancelRejected"
  | .tradeExecuted .. => "TradeExecuted"
  | .orderPartiallyFilled .. => "OrderPartiallyFilled"
  | .orderFilled .. => "OrderFilled"
  | .orderExpired .. => "OrderExpired"
  | .stopOrderAccepted .. => "StopOrderAccepted"
  | .stopOrderTriggered .. => "StopOrderTriggered"
  | .topOfBook .. => "TopOfBook"
  | .symbolHalted .. => "SymbolHalted"
  | .symbolResumed .. => "SymbolResumed"
  | .priceBandUpdated .. => "PriceBandUpdated"
  | .circuitBreakerTriggered .. => "CircuitBreakerTriggered"
  | .auctionStarted .. => "AuctionStarted"
  | .auctionEnded .. => "AuctionEnded"
  | .auctionUncross .. => "AuctionUncross"
  | .indicativePriceUpdated .. => "IndicativePriceUpdated"

def sideName : Side → String
  | .bid => "Bid"
  | .ask => "Ask"

def timeInForceName : TimeInForce → String
  | .gtc => "GTC"
  | .ioc => "IOC"
  | .fok => "FOK"

def tradingPhaseName : TradingPhase → String
  | .continuous => "Continuous"
  | .openingAuction => "OpeningAuction"
  | .closingAuction => "ClosingAuction"
  | .halted => "Halted"

namespace ReplayLog

def serializeReplayEvent (event : Event) : String :=
  "\x7b\"type\":\"" ++ eventTypeName event ++ "\",\"data\":\x7b\"symbol\":\"" ++
    jsonEscape event.symbol ++ "\"\x7d\x7d"

def serializeReplayCommand : ReplayCommand → String
  | .limitOrder side price qty symbol timeInForce =>
    "\x7b\"type\":\"LimitOrderCommand\",\"data\":\x7b\"side\":\"" ++ sideName side ++
      "\",\"price\":" ++ toString price ++ ",\"qty\":" ++ toString qty ++
      ",\"time_in_force\":\"" ++ timeInForceName timeInForce ++ "\",\"symbol\":\"" ++
      jsonEscape symbol ++ "\"\x7d\x7d"
  | .hiddenOrder side price qty symbol =>
    "\x7b\"type\":\"HiddenOrderCommand\",\"data\":\x7b\"side\":\"" ++ sideName side ++
      "\",\"price\":" ++ toString price ++ ",\"qty\":" ++ toString qty ++ ",\"symbol\":\"" ++
      jsonEscape symbol ++ "\"\x7d\x7d"
  | .icebergOrder side price totalQty displayQty symbol =>
    "\x7b\"type\":\"IcebergOrderCommand\",\"data\":\x7b\"side\":\"" ++ sideName side ++
      "\",\"price\":" ++ toString price ++ ",\"total_qty\":" ++ toString totalQty ++
      ",\"display_qty\":" ++ toString displayQty ++ ",\"symbol\":\"" ++ jsonEscape symbol ++
      "\"\x7d\x7d"
  | .marketOrder side qty symbol =>
    "\x7b\"type\":\"MarketOrderCommand\",\"data\":\x7b\"side\":\"" ++ sideName side ++
      "\",\"qty\":" ++ toString qty ++ ",\"symbol\":\"" ++ jsonEscape symbol ++ "\"\x7d\x7d"
  | .cancelOrder id =>
    "\x7b\"type\":\"CancelOrderCommand\",\"data\":\x7b\"id\":" ++ toString id ++ "\x7d\x7d"
  | .setTradingPhase symbol phase =>
    "\x7b\"type\":\"SetTradingPhaseCommand\",\"data\":\x7b\"symbol\":\"" ++ jsonEscape symbol ++
      "\",\"phase\":\"" ++ tradingPhaseName phase ++ "\"\x7d\x7d"
  | .haltSymbol symbol reason =>
    "\x7b\"type\":\"HaltSymbolCommand\",\"data\":\x7b\"symbol\":\"" ++ jsonEscape symbol ++
      "\",\"reason\":\"" ++ jsonEscape reason ++ "\"\x7d\x7d"
  | .resumeSymbol symbol =>
    "\x7b\"type\":\"ResumeSymbolCommand\",\"data\":\x7b\"symbol\":\"" ++ jsonEscape symbol ++
      "\"\x7d\x7d"
  | .setPriceBands symbol lowerPrice upperPrice =>
    "\x7b\"type\":\"SetPriceBandsCommand\",\"data\":\x7b\"symbol\":\"" ++ jsonEscape symbol ++
      "\",\"lower_price\":" ++ toString lowerPrice ++ ",\"upper_price\":" ++
      toString upperPrice ++ "\x7d\x7d"
  | .clearPriceBands symbol =>
    "\x7b\"type\":\"ClearPriceBandsCommand\",\"data\":\x7b\"symbol\":\"" ++ jsonEscape symbol ++
      "\"\x7d\x7d"
  | .auctionUncross symbol =>
    "\x7b\"type\":\"AuctionUncrossCommand\",\"data\":\x7b\"symbol\":\"" ++ jsonEscape symbol ++
      "\"\x7d\x7d"

def serializeReplayEntry (entry : ReplayEntry) : String :=
  "\x7b\"sequence\":" ++ toString entry.sequence ++ ",\"command\":" ++
    serializeReplayCommand entry.command ++ ",\"events\":[" ++
    ",".intercalate (entry.events.map serializeReplayEvent) ++ "]\x7d"

def toJson (log : ReplayLog) : String :=
  "[" ++ ",".intercalate (log.entries.map serializeReplayEntry) ++ "]"

end ReplayLog

/-! What the text should say. -/

namespace ReplayCommand

def typeName : ReplayCommand → String
  | limitOrder .. => "LimitOrderCommand"
  | hiddenOrder .. => "HiddenOrderCommand"
  | icebergOrder .. => "IcebergOrderCommand"
  | marketOrder .. => "MarketOrderCommand"
  | cancelOrder .. => "CancelOrderCommand"
  | setTradingPhase .. => "SetTradingPhaseCommand"
  | haltSymbol .. => "HaltSymbolCommand"
  | resumeSymbol .. => "ResumeSymbolCommand"
  | setPriceBands .. => "SetPriceBandsCommand"
  | clearPriceBands .. => "ClearPriceBandsCommand"
  | auctionUncross .. => "AuctionUncrossCommand"

def fields : ReplayCommand → Dict
  | limitOrder side price qty symbol timeInForce =>
    [("side", .str (sideName side)), ("price", .int price), ("qty", .int qty),
      ("time_in_force", .str (timeInForceName timeInForce)), ("symbol", .str symbol)]
  | hiddenOrder side price qty symbol =>
    [("side", .str (sideName side)), ("price", .int price), ("qty", .int qty),
      ("symbol", .str symbol)]
  | icebergOrder side price totalQty displayQty symbol =>
    [("side", .str (sideName side)), ("price", .int price), ("total_qty", .int totalQty),
      ("display_qty", .int displayQty), ("symbol", .str symbol)]
  | marketOrder side qty symbol =>
    [("side", .str (sideName side)), ("qty", .int qty), ("symbol", .str symbol)]
  | cancelOrder id => [("id", .int id)]
  | setTradingPhase symbol phase =>
    [("symbol", .str symbol), ("phase", .str (tradingPhaseName phase))]
  | haltSymbol symbol reason => [("symbol", .str symbol), ("reason", .str reason)]
  | resumeSymbol symbol => [("symbol", .str symbol)]
  | setPriceBands symbol lowerPrice upperPrice =>
    [("symbol", .str symbol), ("lower_price", .int lowerPrice), ("upper_price", .int upperPrice)]
  | clearPriceBands symbol => [("symbol", .str symbol)]
  | auctionUncross symbol => [("symbol", .str symbol)]

/-- The strings of a command that are not fixed. -/
def texts : ReplayCommand → List String
  | limitOrder _ _ _ symbol _ => [symbol]
  | hiddenOrder _ _ _ symbol => [symbol]
  | icebergOrder _ _ _ _ symbol => [symbol]
  | marketOrder _ _ symbol => [symbol]
  | cancelOrder _ => []
  | setTradingPhase symbol _ => [symbol]
  | haltSymbol symbol reason => [symbol, reason]
  | resumeSymbol symbol => [symbol]
  | setPriceBands symbol _ _ => [symbol]
  | clearPriceBands symbol => [symbol]
  | auctionUncross symbol => [symbol]

end ReplayCommand

/-- An item with its type and its data. -/
def typed (name : String) (data : Dict) : Value := .dict [("type", .str name), ("data", .dict data)]

namespace ReplayEntry

def value (entry : ReplayEntry) : Value :=
  .dict [("sequence", .int entry.sequence),
    ("command", typed entry.command.typeName entry.command.fields),
    ("events", .list (entry.events.map fun event =>
      typed (eventTypeName event) [("symbol", .str event.symbol)]))]

def texts (entry : ReplayEntry) : List String :=
  entry.command.texts ++ entry.events.map Event.symbol

end ReplayEntry

namespace ReplayLog

/-- The text is JSON, and is read as the entries of the log. -/
def Exports (log : ReplayLog) : Prop :=
  decode log.toJson = some (.list (log.entries.map ReplayEntry.value))

def escape : Escape where
  encode := escapeChar
  encodes c := by
    unfold escapeChar
    split_ifs with hbackslash hquote hnewline hreturn htab
    · exact Or.inl (Or.inr ⟨'\\', rfl, by decide, by rw [hbackslash]; decide⟩)
    · exact Or.inl (Or.inr ⟨'"', rfl, by decide, by rw [hquote]; decide⟩)
    · exact Or.inl (Or.inr ⟨'n', rfl, by decide, by rw [hnewline]; decide⟩)
    · exact Or.inl (Or.inr ⟨'r', rfl, by decide, by rw [hreturn]; decide⟩)
    · exact Or.inl (Or.inr ⟨'t', rfl, by decide, by rw [htab]; decide⟩)
    · exact encodes_self hquote hbackslash

/-- The keys and the fixed strings of the text. -/
def keys : List String :=
  ["sequence", "command", "events", "type", "data", "side", "price", "qty", "total_qty",
    "display_qty", "time_in_force", "symbol", "id", "phase", "reason", "lower_price", "upper_price"]

def eventTypeNames : List String :=
  ["OrderAccepted", "HiddenOrderAccepted", "IcebergOrderAccepted", "IcebergReplenished",
    "OrderRejected", "OrderCanceled", "CancelRejected", "TradeExecuted", "OrderPartiallyFilled",
    "OrderFilled", "OrderExpired", "StopOrderAccepted", "StopOrderTriggered", "TopOfBook",
    "SymbolHalted", "SymbolResumed", "PriceBandUpdated", "CircuitBreakerTriggered",
    "AuctionStarted", "AuctionEnded", "AuctionUncross", "IndicativePriceUpdated"]

def commandTypeNames : List String :=
  ["LimitOrderCommand", "HiddenOrderCommand", "IcebergOrderCommand", "MarketOrderCommand",
    "CancelOrderCommand", "SetTradingPhaseCommand", "HaltSymbolCommand", "ResumeSymbolCommand",
    "SetPriceBandsCommand", "ClearPriceBandsCommand", "AuctionUncrossCommand"]

def enumNames : List String :=
  ["Bid", "Ask", "GTC", "IOC", "FOK", "Continuous", "OpeningAuction", "ClosingAuction", "Halted"]

theorem plain_words : ∀ word ∈ keys ++ eventTypeNames ++ commandTypeNames ++ enumNames,
    escape.isPlain word = true ∧ escape.isSafe word = true := by
  decide +kernel

theorem plain_key {key : String} (h : key ∈ keys) :
    escape.isPlain key = true ∧ escape.isSafe key = true := by
  apply plain_words
  simp only [List.mem_append, h, true_or]

theorem quoted_key {key : String} (h : key ∈ keys) : quoted escape key = "\"" ++ key ++ "\"" :=
  quoted_of_isPlain (plain_key h).1

theorem clean_key {key : String} (h : key ∈ keys) : escape.Clean key :=
  Escape.clean_of_isSafe (plain_key h).2

theorem plain_eventTypeName (event : Event) :
    escape.isPlain (eventTypeName event) = true ∧ escape.isSafe (eventTypeName event) = true := by
  have hmem : eventTypeName event ∈ eventTypeNames := by
    cases event <;> simp [eventTypeName, eventTypeNames]
  apply plain_words
  simp only [List.mem_append, hmem, or_true, true_or]

theorem plain_typeName (command : ReplayCommand) :
    escape.isPlain command.typeName = true ∧ escape.isSafe command.typeName = true := by
  have hmem : command.typeName ∈ commandTypeNames := by
    cases command <;> simp [ReplayCommand.typeName, commandTypeNames]
  apply plain_words
  simp only [List.mem_append, hmem, or_true, true_or]

theorem plain_enumName {name : String} (hmem : name ∈ enumNames) :
    escape.isPlain name = true ∧ escape.isSafe name = true := by
  apply plain_words
  simp only [List.mem_append, hmem, or_true]

theorem sideName_mem (side : Side) : sideName side ∈ enumNames := by
  cases side <;> simp [sideName, enumNames]

theorem timeInForceName_mem (timeInForce : TimeInForce) :
    timeInForceName timeInForce ∈ enumNames := by
  cases timeInForce <;> simp [timeInForceName, enumNames]

theorem tradingPhaseName_mem (phase : TradingPhase) : tradingPhaseName phase ∈ enumNames := by
  cases phase <;> simp [tradingPhaseName, enumNames]

theorem quoted_eq (s : String) : quoted escape s = "\"" ++ jsonEscape s ++ "\"" := rfl

theorem serialize_typed {name : String} (h : escape.isPlain name = true) (data : Dict) :
    serialize escape (typed name data) = "\x7b\"type\":\"" ++ name ++ "\",\"data\":\x7b" ++
      ",".intercalate (serializeItems escape data) ++ "\x7d\x7d" := by
  unfold typed
  simp only [serialize, serializeItems, quoted_of_isPlain h]
  simp (disch := decide) only [quoted_key]
  rw [← String.toList_inj]
  simp

theorem serializeReplayEvent_eq (event : Event) : serializeReplayEvent event =
    serialize escape (typed (eventTypeName event) [("symbol", .str event.symbol)]) := by
  rw [serialize_typed (plain_eventTypeName event).1]
  unfold serializeReplayEvent
  simp only [serialize, serializeItems]
  simp (disch := decide) only [quoted_key]
  rw [← String.toList_inj]
  simp [quoted_eq]

theorem serializeReplayCommand_eq (command : ReplayCommand) :
    serializeReplayCommand command = serialize escape (typed command.typeName command.fields) := by
  have hside := fun side => quoted_of_isPlain (plain_enumName (sideName_mem side)).1
  have htime := fun timeInForce =>
    quoted_of_isPlain (plain_enumName (timeInForceName_mem timeInForce)).1
  have hphase := fun phase => quoted_of_isPlain (plain_enumName (tradingPhaseName_mem phase)).1
  have hid : ∀ id : OrderId, toString (id : ℤ) = toString id := fun _ => rfl
  rw [serialize_typed (plain_typeName command).1]
  cases command
  all_goals
    unfold serializeReplayCommand ReplayCommand.typeName ReplayCommand.fields
    simp only [serialize, serializeItems, hside, htime, hphase, hid]
    simp (disch := decide) only [quoted_key]
    rw [← String.toList_inj]
    simp [quoted_eq]

theorem serializeReplayEntry_eq (entry : ReplayEntry) :
    serializeReplayEntry entry = serialize escape entry.value := by
  have hevents : serializeList escape (entry.events.map fun event =>
      typed (eventTypeName event) [("symbol", .str event.symbol)]) =
        entry.events.map serializeReplayEvent := by
    rw [serializeList_eq, List.map_map]
    exact List.map_congr_left fun event _ => (serializeReplayEvent_eq event).symm
  have hsequence : toString (entry.sequence : ℤ) = toString entry.sequence := rfl
  unfold ReplayEntry.value serializeReplayEntry
  rw [serializeReplayCommand_eq]
  generalize typed entry.command.typeName entry.command.fields = command
  simp only [serialize, serializeItems, hevents, hsequence]
  simp (disch := decide) only [quoted_key]
  rw [← String.toList_inj]
  simp

theorem toJson_eq (log : ReplayLog) :
    log.toJson = serialize escape (.list (log.entries.map ReplayEntry.value)) := by
  have hentries : log.entries.map serializeReplayEntry =
      (log.entries.map ReplayEntry.value).map (serialize escape) := by
    rw [List.map_map]
    exact List.map_congr_left fun entry _ => serializeReplayEntry_eq entry
  unfold toJson
  rw [serialize, serializeList_eq, hentries]

/-- A string is clean if its control characters are line feeds, carriage returns and tabs. -/
theorem clean_iff (s : String) : escape.Clean s ↔
    ∀ c ∈ s.toList, c < ' ' → c = '\n' ∨ c = '\r' ∨ c = '\t' := by
  unfold Escape.Clean
  refine forall₂_congr fun c _ => ?_
  rw [Escape.encodes_iff]
  constructor
  · intro h hlt
    by_contra hnone
    rw [not_or, not_or] at hnone
    have hbackslash : c ≠ '\\' := by
      rintro rfl
      revert hlt
      decide
    have hquote : c ≠ '"' := by
      rintro rfl
      revert hlt
      decide
    have hraw : escape.encode c = [c] := by
      change escapeChar c = [c]
      unfold escapeChar
      rw [if_neg hbackslash, if_neg hquote, if_neg hnone.1, if_neg hnone.2.1, if_neg hnone.2.2]
    exact h ⟨hraw, hlt⟩
  · rintro h ⟨hraw, hlt⟩
    rcases h hlt with rfl | rfl | rfl <;> exact absurd hraw (by decide)

theorem clean_eventTypeName (event : Event) : escape.Clean (eventTypeName event) :=
  Escape.clean_of_isSafe (plain_eventTypeName event).2

/-- The texts of a command are clean if those are that are not fixed. -/
theorem each_command_iff (command : ReplayCommand) :
    Each escape.Clean (fun _ => True) (typed command.typeName command.fields) ↔
      ∀ s ∈ command.texts, escape.Clean s := by
  have hname := Escape.clean_of_isSafe (plain_typeName command).2
  have hside := fun side => Escape.clean_of_isSafe (plain_enumName (sideName_mem side)).2
  have htime := fun timeInForce =>
    Escape.clean_of_isSafe (plain_enumName (timeInForceName_mem timeInForce)).2
  have hphase := fun phase => Escape.clean_of_isSafe (plain_enumName (tradingPhaseName_mem phase)).2
  have hint : ∀ n, Each escape.Clean (fun _ => True) (.int n) := Each.int
  unfold typed
  cases command
  all_goals
    unfold ReplayCommand.fields ReplayCommand.texts
    simp (disch := decide) only [each_dict_iff, each_str_iff, List.forall_mem_cons, hint,
      hname, hside, htime, hphase, clean_key, true_and, and_true]
    simp

/-- The texts of an entry are clean if those are that are not fixed. -/
theorem each_value_iff (entry : ReplayEntry) : Each escape.Clean (fun _ => True) entry.value ↔
    ∀ s ∈ entry.texts, escape.Clean s := by
  have hevent : ∀ event : Event, Each escape.Clean (fun _ => True)
      (typed (eventTypeName event) [("symbol", .str event.symbol)]) ↔ escape.Clean event.symbol := by
    intro event
    unfold typed
    simp (disch := decide) only [each_dict_iff, each_str_iff, List.forall_mem_cons,
      clean_eventTypeName, clean_key, true_and, and_true]
    simp
  have hint : Each escape.Clean (fun _ => True) (.int entry.sequence) := .int _
  unfold ReplayEntry.value ReplayEntry.texts
  simp (disch := decide) only [each_dict_iff, each_list_iff, List.forall_mem_cons,
    List.forall_mem_append, List.forall_mem_map, each_command_iff, hevent, hint, clean_key, true_and]
  simp

theorem each_entries_iff {text number : String → Prop} (log : ReplayLog) :
    Each text number (.list (log.entries.map ReplayEntry.value)) ↔
      ∀ entry ∈ log.entries, Each text number entry.value := by
  rw [each_list_iff, List.forall_mem_map]

/-- An entry has no floats. -/
theorem floats_value (entry : ReplayEntry) : Each (fun _ => True) IsFloat entry.value := by
  have hint : ∀ n, Each (fun _ => True) IsFloat (.int n) := Each.int
  have hcommand : ∀ command : ReplayCommand,
      Each (fun _ => True) IsFloat (typed command.typeName command.fields) := by
    intro command
    cases command <;>
      simp [typed, ReplayCommand.fields, each_dict_iff, each_str_iff, hint]
  have hevent : ∀ event : Event, Each (fun _ => True) IsFloat
      (typed (eventTypeName event) [("symbol", .str event.symbol)]) := by
    intro event
    simp [typed, each_dict_iff, each_str_iff]
  unfold ReplayEntry.value
  simp [each_dict_iff, each_list_iff, hint, hcommand, hevent]

/-- The text of a log is JSON and tells its entries exactly if the symbols and the reasons in it have
no control characters but line feeds, carriage returns and tabs. -/
theorem exports_iff (log : ReplayLog) : log.Exports ↔ ∀ entry ∈ log.entries, ∀ s ∈ entry.texts,
    ∀ c ∈ s.toList, c < ' ' → c = '\n' ∨ c = '\r' ∨ c = '\t' := by
  have hfloats : Each (fun _ => True) IsFloat (.list (log.entries.map ReplayEntry.value)) :=
    (each_entries_iff log).mpr fun entry _ => floats_value entry
  obtain ⟨hclean, hraw⟩ := @decode_serialize escape _ hfloats
  have htexts : Each escape.Clean (fun _ => True) (.list (log.entries.map ReplayEntry.value)) ↔
      ∀ entry ∈ log.entries, ∀ s ∈ entry.texts,
        ∀ c ∈ s.toList, c < ' ' → c = '\n' ∨ c = '\r' ∨ c = '\t' := by
    rw [each_entries_iff]
    exact forall₂_congr fun entry _ => (each_value_iff entry).trans
      (forall₂_congr fun s _ => clean_iff s)
  unfold Exports
  rw [toJson_eq, ← htexts]
  constructor
  · intro h
    by_contra hnot
    rw [hraw hnot] at h
    cases h
  · exact hclean

end ReplayLog
end Tes
