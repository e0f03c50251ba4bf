import Tes.Market.Snapshots
import Tes.Replay.ReplayLog

/-! Recorded market data and its JSON text. -/
namespace Tes
open Json Json.Text

structure MarketDataRecord where
  symbol : Symbol
  sequenceNumber : ℕ
  step : ℕ
  timestamp : ℕ
  bids : List BookLevel
  asks : List BookLevel
  triggeringEventNames : List String

structure MarketDataRecorder where
  maxRecordsPerSymbol : Option ℕ
  recordsBySymbol : Finmap fun _ : Symbol => List MarketDataRecord := ∅
  nextStep : ℕ := 1
  nextTimestamp : ℕ := 1

/-- The texts of doubles, with six decimals: the mean of two prices, and a part of a whole. -/
structure DoubleTexts where
  midPrice : ℤ → ℤ → String
  imbalance : ℤ → ℤ → String
  midPrice_isFloat : ∀ bid ask, IsFloat (midPrice bid ask)
  imbalance_isFloat : ∀ part whole, IsFloat (imbalance part whole)

namespace MarketData

/-- The name that is recorded for an event. -/
def eventName : Event → String
  | .orderAccepted .. => "OrderAccepted"
  | .orderRejected .. => "OrderRejected"
  | .orderCanceled .. => "OrderCanceled"
  | .cancelRejected .. => "CancelRejected"
  | .tradeExecuted .. => "TradeExecuted"
  | .orderPartiallyFilled .. => "OrderPartiallyFilled"
  | .orderFilled .. => "OrderFilled"
  | .orderExpired .. => "OrderExpired"
  | .stopOrderAccepted .. => "StopOrderAccepted"
  | .stopOrderTriggered .. => "StopOrderTriggered"
  | _ => "TopOfBook"

def escapeChar (c : Char) : List Char := if c = '\\' ∨ c = '"' then ['\\', c] else [c]

def jsonEscape (value : String) : String := String.ofList (value.toList.flatMap escapeChar)

end MarketData

namespace MarketDataRecorder
open MarketData

def appendRecord (recorder : MarketDataRecorder) (record : MarketDataRecord) : MarketDataRecorder :=
  let records := recorder.recordsBySymbol.valueD record.symbol [] ++ [record]
  -- as many are dropped from the front as are too many
  let records := match recorder.maxRecordsPerSymbol with
    | some limit => records.rtake limit
    | none => records
  { recorder with recordsBySymbol := recorder.recordsBySymbol.insert record.symbol records }

def recordEventSnapshot (recorder : MarketDataRecorder) (symbol : Symbol) (sequenceNumber : ℕ)
    (events : List Event) (snapshot : BookSnapshot) : MarketDataRecorder :=
  { recorder with
    nextStep := recorder.nextStep + 1
    nextTimestamp := recorder.nextTimestamp + 1 }.appendRecord
      { symbol, sequenceNumber, step := recorder.nextStep, timestamp := recorder.nextTimestamp
        bids := snapshot.bids, asks := snapshot.asks
        triggeringEventNames := events.map eventName }

def latest (recorder : MarketDataRecorder) (symbol : Symbol) : Option MarketDataRecord :=
  (recorder.recordsBySymbol.valueD symbol []).getLast?

end MarketDataRecorder

namespace MarketData

structure MarketDataSummary where
  bestBid : Option ℤ
  bestAsk : Option ℤ
  midPrice : Option String
  spread : Option ℤ
  totalBidQty : ℤ
  totalAskQty : ℤ
  imbalance : Option String

/-- The summary of a record, its doubles by their texts. -/
def summarize (doubles : DoubleTexts) (record : MarketDataRecord) : MarketDataSummary :=
  let bestBid := record.bids.head?.map BookLevel.price
  let bestAsk := record.asks.head?.map BookLevel.price
  let totalBidQty := (record.bids.map BookLevel.qty).sum
  let totalAskQty := (record.asks.map BookLevel.qty).sum
  let totalQty := totalBidQty + totalAskQty
  { bestBid, bestAsk, totalBidQty, totalAskQty
    midPrice := bestBid.bind fun bid => bestAsk.map fun ask => doubles.midPrice bid ask
    spread := bestBid.bind fun bid => bestAsk.map fun ask => ask - bid
    imbalance := if 0 < totalQty then some (doubles.imbalance totalBidQty totalQty) else none }

def levelToJson (side : String) (l : BookLevel) : String :=
  "\x7b\"symbol\":\"" ++ jsonEscape l.symbol ++ "\",\"side\":\"" ++ side ++ "\",\"price\":" ++
    toString l.price ++ ",\"qty\":" ++ toString l.qty ++ "\x7d"

def orNull : Option String → String
  | some text => text
  | none => "null"

def recordToJson (doubles : DoubleTexts) (record : MarketDataRecord) : String :=
  let s := summarize doubles record
  "\x7b\"symbol\":\"" ++ jsonEscape record.symbol ++ "\",\"sequence_number\":" ++
    toString record.sequenceNumber ++ ",\"step\":" ++ toString record.step ++
    ",\"timestamp\":" ++ toString record.timestamp ++
    ",\"bids\":[" ++ ",".intercalate (record.bids.map (levelToJson "BUY")) ++
    "],\"asks\":[" ++ ",".intercalate (record.asks.map (levelToJson "SELL")) ++
    "],\"triggering_event_names\":[" ++
    ",".intercalate (record.triggeringEventNames.map fun name => "\"" ++ jsonEscape name ++ "\"") ++
    "],\"summary\":\x7b" ++
    "\"best_bid\":" ++ orNull (s.bestBid.map toString) ++ "," ++
    "\"best_ask\":" ++ orNull (s.bestAsk.map toString) ++ "," ++
    "\"mid_price\":" ++ orNull s.midPrice ++ "," ++
    "\"spread\":" ++ orNull (s.spread.map toString) ++ "," ++
    "\"total_bid_qty\":" ++ toString s.totalBidQty ++ "," ++
    "\"total_ask_qty\":" ++ toString s.totalAskQty ++ "," ++
    "\"imbalance\":" ++ orNull s.imbalance ++ "\x7d\x7d"

/-! What the text should say. -/

def levelValue (side : String) (l : BookLevel) : Value :=
  .dict [("symbol", .str l.symbol), ("side", .str side), ("price", .int l.price),
    ("qty", .int l.qty)]

def summaryValue (s : MarketDataSummary) : Value :=
  .dict [("best_bid", s.bestBid.elim .null .int), ("best_ask", s.bestAsk.elim .null .int),
    ("mid_price", s.midPrice.elim .null .float), ("spread", s.spread.elim .null .int),
    ("total_bid_qty", .int s.totalBidQty), ("total_ask_qty", .int s.totalAskQty),
    ("imbalance", s.imbalance.elim .null .float)]

def recordItems (doubles : DoubleTexts) (record : MarketDataRecord) : Dict :=
  [("symbol", .str record.symbol), ("sequence_number", .int record.sequenceNumber),
    ("step", .int record.step), ("timestamp", .int record.timestamp),
    ("bids", .list (record.bids.map (levelValue "BUY"))),
    ("asks", .list (record.asks.map (levelValue "SELL"))),
    ("triggering_event_names", .list (record.triggeringEventNames.map .str)),
    ("summary", summaryValue (summarize doubles record))]

/-- The text of a record is JSON, and is read as a dict with the recorded symbol, the levels of the
snapshot and the names of the types of the events. -/
structure Exports (doubles : DoubleTexts) (symbol : Symbol) (events : List Event)
    (snapshot : BookSnapshot) (record : MarketDataRecord) (data : Dict) : Prop where
  decodes : decode (recordToJson doubles record) = some (.dict data)
  symbol : data.get "symbol" = some (.str symbol)
  bids : data.get "bids" = some (.list (snapshot.bids.map (levelValue "BUY")))
  asks : data.get "asks" = some (.list (snapshot.asks.map (levelValue "SELL")))
  names : data.get "triggering_event_names" =
    some (.list (events.map fun event => .str (eventTypeName event)))

/-- The kinds of events that have names of their own in a record. -/
def IsNamed : Event → Prop
  | .hiddenOrderAccepted .. => False
  | .icebergOrderAccepted .. => False
  | .icebergReplenished .. => False
  | .symbolHalted .. => False
  | .symbolResumed .. => False
  | .priceBandUpdated .. => False
  | .circuitBreakerTriggered .. => False
  | .auctionStarted .. => False
  | .auctionEnded .. => False
  | .auctionUncross .. => False
  | .indicativePriceUpdated .. => False
  | _ => True

theorem eventName_eq_iff (event : Event) : eventName event = eventTypeName event ↔ IsNamed event := by
  cases event <;> simp [eventName, eventTypeName, IsNamed]

def escape : Escape where
  encode := escapeChar
  encodes c := by
    unfold escapeChar
    split_ifs with hspecial
    · rcases hspecial with rfl | rfl
      · exact Or.inl (Or.inr ⟨'\\', rfl, by decide, by decide⟩)
      · exact Or.inl (Or.inr ⟨'"', rfl, by decide, by decide⟩)
    · rw [not_or] at hspecial
      exact encodes_self hspecial.2 hspecial.1

/-- The keys of the text and the sides in it. -/
def keys : List String :=
  ["symbol", "side", "price", "qty", "BUY", "SELL", "sequence_number", "step", "timestamp", "bids",
    "asks", "triggering_event_names", "summary", "best_bid", "best_ask", "mid_price", "spread",
    "total_bid_qty", "total_ask_qty", "imbalance"]

def eventNames : List String :=
  ["OrderAccepted", "OrderRejected", "OrderCanceled", "CancelRejected", "TradeExecuted",
    "OrderPartiallyFilled", "OrderFilled", "OrderExpired", "StopOrderAccepted",
    "StopOrderTriggered", "TopOfBook"]

theorem plain_words : ∀ word ∈ keys ++ eventNames,
    escape.isPlain word = true ∧ escape.isSafe word = true := by
  decide +kernel

theorem plain_key {key : String} (h : key ∈ keys) :
    escape.isPlain key = true ∧ escape.isSafe key = true := by
  apply plain_words
  simp only [List.mem_append, h, true_or]

theorem quoted_key {key : String} (h : key ∈ keys) : quoted escape key = "\"" ++ key ++ "\"" :=
  quoted_of_isPlain (plain_key h).1

theorem clean_key {key : String} (h : key ∈ keys) : escape.Clean key :=
  Escape.clean_of_isSafe (plain_key h).2

theorem quoted_eq (s : String) : quoted escape s = "\"" ++ jsonEscape s ++ "\"" := rfl

theorem serialize_levels {side : String} (h : side ∈ keys) (levels : List BookLevel) :
    serializeList escape (levels.map (levelValue side)) = levels.map (levelToJson side) := by
  rw [serializeList_eq, List.map_map]
  refine List.map_congr_left fun l _ => ?_
  rw [Function.comp_apply]
  unfold levelValue levelToJson
  simp only [serialize, serializeItems, quoted_key h]
  simp (disch := decide) only [quoted_key]
  rw [← String.toList_inj]
  simp [quoted_eq]

theorem serialize_elim (value : Option ℤ) :
    serialize escape (value.elim .null .int) = orNull (value.map toString) := by
  cases value <;> rfl

theorem serialize_elim_float (text : Option String) :
    serialize escape (text.elim .null .float) = orNull text := by
  cases text <;> rfl

set_option maxRecDepth 8000 in
theorem recordToJson_eq (doubles : DoubleTexts) (record : MarketDataRecord) :
    recordToJson doubles record = serialize escape (.dict (recordItems doubles record)) := by
  have hbuy := serialize_levels (by decide : "BUY" ∈ keys) record.bids
  have hsell := serialize_levels (by decide : "SELL" ∈ keys) record.asks
  have hnames : serializeList escape (record.triggeringEventNames.map .str) =
      record.triggeringEventNames.map fun name => "\"" ++ jsonEscape name ++ "\"" := by
    rw [serializeList_eq, List.map_map]
    rfl
  have hnat : ∀ n : ℕ, toString (n : ℤ) = toString n := fun _ => rfl
  unfold recordToJson recordItems summaryValue
  simp only [serialize, serializeItems, hbuy, hsell, hnames, hnat, serialize_elim,
    serialize_elim_float]
  simp (disch := decide) only [quoted_key]
  rw [← String.toList_inj]
  simp [quoted_eq]

/-- A string is clean if it has no control characters. -/
theorem clean_iff (s : String) : escape.Clean s ↔ ∀ c ∈ s.toList, ' ' ≤ c := by
  unfold Escape.Clean
  refine forall₂_congr fun c _ => ?_
  rw [Escape.encodes_iff]
  constructor
  · intro h
    by_contra hlt
    rw [not_le] at hlt
    have hplain : ¬ (c = '\\' ∨ c = '"') := by
      rintro (rfl | rfl) <;> exact absurd hlt (by decide)
    exact h ⟨if_neg hplain, hlt⟩
  · rintro hle ⟨-, hlt⟩
    exact absurd hlt (not_lt.mpr hle)

theorem clean_eventName (event : Event) : escape.Clean (eventName event) := by
  have hmem : eventName event ∈ eventNames := by
    cases event <;> simp [eventName, eventNames]
  apply Escape.clean_of_isSafe
  apply And.right
  apply plain_words
  exact List.mem_append_right _ hmem

/-- The symbols in a record and its levels. -/
def symbolsOf (record : MarketDataRecord) : List Symbol :=
  record.symbol :: (record.bids ++ record.asks).map BookLevel.symbol

theorem each_levels_iff {side : String} (h : side ∈ keys) (levels : List BookLevel) :
    Each escape.Clean (fun _ => True) (.list (levels.map (levelValue side))) ↔
      ∀ l ∈ levels, escape.Clean l.symbol := by
  have hside := clean_key h
  have hint : ∀ n, Each escape.Clean (fun _ => True) (.int n) := Each.int
  rw [each_list_iff, List.forall_mem_map]
  refine forall₂_congr fun l _ => ?_
  unfold levelValue
  simp (disch := decide) only [each_dict_iff, each_str_iff, List.forall_mem_cons, hint, hside,
    clean_key, true_and, and_true]
  simp

theorem each_elim {text number : String → Prop} (value : Option ℤ) :
    Each text number (value.elim .null .int) := by
  cases value with
  | none => exact .null
  | some n => exact .int n

theorem each_elim_float {text number : String → Prop} {value : Option String}
    (h : ∀ repr ∈ value, number repr) : Each text number (value.elim .null .float) := by
  cases value with
  | none => exact .null
  | some repr => exact .float (h repr rfl)

/-- The texts of a record are clean if its symbols and its names are. -/
theorem each_record_iff (doubles : DoubleTexts) (record : MarketDataRecord) :
    Each escape.Clean (fun _ => True) (.dict (recordItems doubles record)) ↔
      (∀ s ∈ symbolsOf record, escape.Clean s) ∧
        ∀ name ∈ record.triggeringEventNames, escape.Clean name := by
  have hbuy := each_levels_iff (by decide : "BUY" ∈ keys) record.bids
  have hsell := each_levels_iff (by decide : "SELL" ∈ keys) record.asks
  have hint : ∀ n, Each escape.Clean (fun _ => True) (.int n) := Each.int
  have helim : ∀ value : Option ℤ, Each escape.Clean (fun _ => True) (value.elim .null .int) :=
    each_elim
  have hfloat : ∀ value : Option String,
      Each escape.Clean (fun _ => True) (value.elim .null .float) :=
    fun value => each_elim_float fun _ _ => trivial
  unfold recordItems summaryValue symbolsOf
  simp (disch := decide) only [each_dict_iff, each_str_iff, List.forall_mem_cons, hint, helim,
    hfloat, hbuy, hsell, clean_key, true_and, and_true]
  simp [each_list_iff, each_str_iff, or_imp, forall_and, and_assoc]

theorem floats_record (doubles : DoubleTexts) (record : MarketDataRecord) :
    Each (fun _ => True) IsFloat (.dict (recordItems doubles record)) := by
  have hint : ∀ n, Each (fun _ => True) IsFloat (.int n) := Each.int
  have helim : ∀ value : Option ℤ, Each (fun _ => True) IsFloat (value.elim .null .int) := each_elim
  have hlevels : ∀ side levels,
      Each (fun _ => True) IsFloat (.list (List.map (levelValue side) levels)) := by
    intro side levels
    simp [levelValue, each_list_iff, each_dict_iff, each_str_iff, hint]
  have hmid : Each (fun _ => True) IsFloat
      ((summarize doubles record).midPrice.elim .null .float) := by
    refine each_elim_float fun repr hrepr => ?_
    obtain ⟨bid, -, hask⟩ := Option.bind_eq_some_iff.mp hrepr
    obtain ⟨ask, -, rfl⟩ := Option.map_eq_some_iff.mp hask
    exact doubles.midPrice_isFloat bid ask
  have himbalance : Each (fun _ => True) IsFloat
      ((summarize doubles record).imbalance.elim .null .float) := by
    refine each_elim_float fun repr hrepr => ?_
    unfold summarize at hrepr
    dsimp only at hrepr
    split_ifs at hrepr
    · rw [← Option.some.inj hrepr]
      exact doubles.imbalance_isFloat _ _
    · cases hrepr
  unfold recordItems summaryValue
  simp [each_dict_iff, each_list_iff, each_str_iff, hint, helim, hlevels, hmid, himbalance]

theorem latest_recordEventSnapshot {recorder : MarketDataRecorder} {symbol : Symbol}
    {sequenceNumber : ℕ} {events : List Event} {snapshot : BookSnapshot} {record : MarketDataRecord}
    (h : (recorder.recordEventSnapshot symbol sequenceNumber events snapshot).latest symbol =
      some record) :
    record.symbol = symbol ∧ record.bids = snapshot.bids ∧ record.asks = snapshot.asks ∧
      record.triggeringEventNames = events.map eventName := by
  unfold MarketDataRecorder.recordEventSnapshot MarketDataRecorder.appendRecord
    MarketDataRecorder.latest at h
  dsimp only at h
  rw [Finmap.valueD_insert, if_pos rfl] at h
  cases hlimit : recorder.maxRecordsPerSymbol with
  | none =>
    rw [hlimit] at h
    dsimp only at h
    rw [List.getLast?_concat] at h
    cases h
    exact ⟨rfl, rfl, rfl, rfl⟩
  | some limit =>
    rw [hlimit] at h
    dsimp only at h
    cases limit with
    | zero =>
      rw [List.rtake_zero] at h
      cases h
    | succ limit =>
      rw [List.rtake_concat_succ, List.getLast?_concat] at h
      cases h
      exact ⟨rfl, rfl, rfl, rfl⟩

/-- The text of a stored record tells what was recorded exactly if its symbols have no control
characters and every event is of a kind with a name of its own. -/
theorem exists_exports_iff (doubles : DoubleTexts) {recorder : MarketDataRecorder} {symbol : Symbol}
    {sequenceNumber : ℕ} {events : List Event} {snapshot : BookSnapshot} {record : MarketDataRecord}
    (h : (recorder.recordEventSnapshot symbol sequenceNumber events snapshot).latest symbol =
      some record) :
    (∃ data, Exports doubles symbol events snapshot record data) ↔
      (∀ s ∈ symbolsOf record, ∀ c ∈ s.toList, ' ' ≤ c) ∧ ∀ event ∈ events, IsNamed event := by
  obtain ⟨hsymbol, hbids, hasks, hnames⟩ := latest_recordEventSnapshot h
  obtain ⟨hclean, hraw⟩ := @decode_serialize escape _ (floats_record doubles record)
  have htexts : Each escape.Clean (fun _ => True) (.dict (recordItems doubles record)) ↔
      ∀ s ∈ symbolsOf record, ∀ c ∈ s.toList, ' ' ≤ c := by
    have hrecorded : ∀ name ∈ record.triggeringEventNames, escape.Clean name := by
      rw [hnames, List.forall_mem_map]
      exact fun event _ => clean_eventName event
    rw [each_record_iff, and_iff_left hrecorded]
    exact forall₂_congr fun s _ => clean_iff s
  have hnamed : (events.map fun event => Value.str (eventName event)) =
      (events.map fun event => .str (eventTypeName event)) ↔ ∀ event ∈ events, IsNamed event := by
    rw [List.map_inj_left]
    refine forall₂_congr fun event _ => ?_
    rw [Value.str.injEq, eventName_eq_iff]
  rw [← htexts, ← hnamed]
  have hget : (recordItems doubles record).get "triggering_event_names" =
      some (.list (events.map fun event => .str (eventName event))) := by
    have hlookup : (recordItems doubles record).get "triggering_event_names" =
        some (.list (record.triggeringEventNames.map .str)) := rfl
    rw [hlookup, hnames, List.map_map]
    rfl
  constructor
  · rintro ⟨data, hdata⟩
    have hdecodes := hdata.decodes
    rw [recordToJson_eq] at hdecodes
    by_cases hall : Each escape.Clean (fun _ => True) (.dict (recordItems doubles record))
    · rw [hclean hall] at hdecodes
      have hitems : recordItems doubles record = data := Value.dict.inj (Option.some.inj hdecodes)
      have hsame := hdata.names
      rw [← hitems, hget] at hsame
      exact ⟨hall, Value.list.inj (Option.some.inj hsame)⟩
    · rw [hraw hall] at hdecodes
      cases hdecodes
  · rintro ⟨hall, hsame⟩
    refine ⟨recordItems doubles record, ?_, ?_, ?_, ?_, ?_⟩
    · rw [recordToJson_eq]
      exact hclean hall
    · rw [← hsymbol]
      rfl
    · rw [← hbids]
      rfl
    · rw [← hasks]
      rfl
    · rw [hget, hsame]

end MarketData

/-- The exported texts are JSON and faithful exactly where a replay log has no control characters in
its symbols and reasons but line feeds, carriage returns and tabs, and a record has none in its
symbols and only events of the kinds with names of their own. -/
theorem json_exports_iff (log : ReplayLog) (doubles : DoubleTexts) :
    (log.Exports ↔ ∀ entry ∈ log.entries, ∀ s ∈ entry.texts,
      ∀ c ∈ s.toList, c < ' ' → c = '\n' ∨ c = '\r' ∨ c = '\t') ∧
    ∀ (recorder : MarketDataRecorder) (symbol : Symbol) (sequenceNumber : ℕ)
      (events : List Event) (snapshot : BookSnapshot) (record : MarketDataRecord),
      (recorder.recordEventSnapshot symbol sequenceNumber events snapshot).latest symbol =
        some record →
      ((∃ data, MarketData.Exports doubles symbol events snapshot record data) ↔
        (∀ s ∈ MarketData.symbolsOf record, ∀ c ∈ s.toList, ' ' ≤ c) ∧
          ∀ event ∈ events, MarketData.IsNamed event) := by
  constructor
  · exact log.exports_iff
  · intro recorder symbol sequenceNumber events snapshot record h
    exact MarketData.exists_exports_iff doubles h

/-- The doubles of a book with one lot at 100 and one at 101. -/
def halves : DoubleTexts where
  midPrice _ _ := toString (100 : ℤ) ++ "." ++ "500000"
  imbalance _ _ := toString (0 : ℤ) ++ "." ++ "500000"
  midPrice_isFloat _ _ := isFloat_decimals 100 (by decide)
  imbalance_isFloat _ _ := isFloat_decimals 0 (by decide)

def oneLevelBook : BookSnapshot :=
  { symbol := "SIM", sequenceNumber := 1, bids := [⟨"SIM", .bid, 100, 1⟩]
    asks := [⟨"SIM", .ask, 101, 1⟩] }

def emptyRecorder : MarketDataRecorder := { maxRecordsPerSymbol := none }

/-- The first record of a symbol. -/
theorem exists_latest (events : List Event) : ∃ record,
    (emptyRecorder.recordEventSnapshot "SIM" 1 events oneLevelBook).latest "SIM" = some record ∧
      MarketData.symbolsOf record = ["SIM", "SIM", "SIM"] := by
  unfold MarketDataRecorder.recordEventSnapshot MarketDataRecorder.appendRecord
    MarketDataRecorder.latest
  dsimp only [emptyRecorder]
  rw [Finmap.valueD_insert, if_pos rfl, List.getLast?_concat]
  exact ⟨_, rfl, rfl⟩

def haltLog (reason : String) : ReplayLog :=
  ({} : ReplayLog).record (.haltSymbol "SIM" reason) [.symbolHalted "SIM" reason]

theorem texts_haltLog {reason : String} {entry : ReplayEntry}
    (h : entry ∈ (haltLog reason).entries) : entry.texts = ["SIM", reason, "SIM"] := by
  rw [List.mem_singleton.mp h]
  rfl

theorem json_exports_halt : (haltLog "line 1\nline 2").Exports ∧ ∃ record data,
    (emptyRecorder.recordEventSnapshot "SIM" 1 [.orderFilled 1 1 "SIM"] oneLevelBook).latest "SIM" =
        some record ∧
      MarketData.Exports halves "SIM" [.orderFilled 1 1 "SIM"] oneLevelBook record data := by
  constructor
  · apply (json_exports_iff (haltLog "line 1\nline 2") halves).1.mpr
    intro entry hentry s hs
    rw [texts_haltLog hentry] at hs
    have hsafe : ∀ s ∈ ["SIM", "line 1\nline 2", "SIM"], ReplayLog.escape.isSafe s = true := by
      decide +kernel
    exact (ReplayLog.clean_iff s).mp (Escape.clean_of_isSafe (hsafe s hs))
  · obtain ⟨record, hlatest, hsymbols⟩ := exists_latest [.orderFilled 1 1 "SIM"]
    have hexports := ((json_exports_iff {} halves).2 emptyRecorder "SIM" 1 [.orderFilled 1 1 "SIM"]
      oneLevelBook record hlatest).mpr (by
        rw [hsymbols]
        constructor
        · have hsafe : ∀ s ∈ ["SIM", "SIM", "SIM"], MarketData.escape.isSafe s = true := by
            decide +kernel
          exact fun s hs => (MarketData.clean_iff s).mp (Escape.clean_of_isSafe (hsafe s hs))
        · intro event hevent
          rw [List.mem_singleton.mp hevent]
          trivial)
    obtain ⟨data, hdata⟩ := hexports
    exact ⟨record, data, hlatest, hdata⟩

/-- A reason with the character U+0001 is no JSON, and a hidden order is recorded as a change of the
top of the book. -/
theorem not_json_exports : ¬ (haltLog "\x01").Exports ∧ ∃ record,
    (emptyRecorder.recordEventSnapshot "SIM" 1 [.hiddenOrderAccepted 1 .bid 100 1 "SIM"]
        oneLevelBook).latest "SIM" = some record ∧
      ∀ data, ¬ MarketData.Exports halves "SIM" [.hiddenOrderAccepted 1 .bid 100 1 "SIM"]
        oneLevelBook record data := by
  constructor
  · intro h
    have hreason := (ReplayLog.exports_iff _).mp h _ (List.mem_singleton_self _) "\x01"
      (by rw [texts_haltLog (List.mem_singleton_self _)]; decide) '\x01' (by decide +kernel) (by decide)
    revert hreason
    decide
  · obtain ⟨record, hlatest, -⟩ := exists_latest [.hiddenOrderAccepted 1 .bid 100 1 "SIM"]
    refine ⟨record, hlatest, fun data hdata => ?_⟩
    exact ((MarketData.exists_exports_iff halves hlatest).mp ⟨data, hdata⟩).2 _
      (List.mem_singleton_self _)

end Tes
