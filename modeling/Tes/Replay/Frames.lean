import Mathlib.Data.Int.Log
import Mathlib.Data.List.Sort
import Mathlib.Data.Rat.Floor
import Mathlib.Data.String.Basic
import Tes.Replay.Verification

/-! The replay viewer: the timeline of a stored run, the frame of each of its steps and the ranges
of frames that are served. -/
namespace Tes
open Json

namespace ReplayService
open ReplayVerifier (Double)

inductive PlaybackError
  | valueError (message : String)
  | overflowError
  deriving DecidableEq

/-- `sorted(set(xs))`. -/
def sortedSet {α : Type} [LinearOrder α] (xs : List α) : List α :=
  xs.dedup.insertionSort (· ≤ ·)

section Sets
variable {α : Type} [LinearOrder α] {xs : List α}

theorem mem_sortedSet {x : α} : x ∈ sortedSet xs ↔ x ∈ xs := by
  rw [sortedSet, (List.perm_insertionSort _ _).mem_iff, List.mem_dedup]

theorem pairwise_sortedSet : (sortedSet xs).Pairwise (· < ·) := by
  have hle : (sortedSet xs).Pairwise (· ≤ ·) := List.pairwise_insertionSort _ _
  have hne : (sortedSet xs).Pairwise (· ≠ ·) :=
    (List.perm_insertionSort _ _).nodup_iff.mpr xs.nodup_dedup
  exact (hle.and hne).imp fun h => lt_of_le_of_ne h.1 h.2

end Sets

/-! Values of a payload. -/

def intValue (value : Option Value) : Option ℤ :=
  match value with
  | some (.int n) => some n
  | _ => none

def stringValue (value : Option Value) : Option String :=
  match value with
  | some (.str s) => some s
  | _ => none

/-- The items of a dict, and of anything else none. -/
def dictItems (value : Option Value) : Dict :=
  match value with
  | some (.dict items) => (Dict.keys items).filterMap fun key =>
    (Dict.get items key).map fun value => (key, value)
  | _ => []

def dictKeys (value : Option Value) : List String := (dictItems value).map Prod.fst

/-- `left or right`. -/
def pyOr (left right : Option Value) : Option Value := if truthy left then left else right

/-- `left or right` of strings: the empty one is as good as none. -/
def orString (left right : Option String) : Option String :=
  match left with
  | some s => if s = "" then right else some s
  | none => right

/-- `left or right` of integers: zero is as good as none. -/
def orInt (left right : Option ℤ) : Option ℤ :=
  match left with
  | some n => if n = 0 then right else some n
  | none => right

def eventData (event : Dict) : Dict :=
  match event.get "data" with
  | some (.dict data) => data
  | _ => []

def entryStep (payload : Dict) : Option ℤ :=
  match intValue (payload.get "step") with
  | some direct => some direct
  | none => intValue ((eventData payload).get "step")

/-- The value at the first of some keys that a payload has. -/
def firstKey (payload : Dict) (keys : List String) : Option Value := keys.findSome? payload.get

def entryTimestamp (payload : Dict) : Option Value :=
  match firstKey payload ["timestamp", "time", "created_at"] with
  | some value => some value
  | none => firstKey (eventData payload) ["timestamp", "time"]

def firstInt (value : Dict) (keys : List String) : Option ℤ :=
  keys.findSome? fun key => intValue (value.get key)

/-! The timeline of a run. -/

/-- What is stored of a run: the configuration of its record and its artifacts. -/
structure RunArtifacts where
  config : Dict
  report : Dict
  events : List Dict
  snapshots : List Dict
  accounts : List Dict
  logs : List Dict

/-- The sorted replay steps available for a run. -/
structure ReplayTimeline where
  steps : List ℤ
  nonneg : ∀ step ∈ steps, 0 ≤ step
  sorted : sortedSet steps = steps

def ReplayTimeline.create (steps : List ℤ) : Except PlaybackError ReplayTimeline :=
  if nonneg : ∀ step ∈ steps, 0 ≤ step then
    if sorted : sortedSet steps = steps then .ok ⟨steps, nonneg, sorted⟩
    else .error (.valueError "timeline steps must be unique and sorted")
  else .error (.valueError "timeline steps must be non-negative integers")

namespace ReplayTimeline
variable (timeline : ReplayTimeline)

def firstStep : ℤ := timeline.steps.head?.getD 0

def lastStep : ℤ := timeline.steps.getLast?.getD 0

def clamp (step : ℤ) : ℤ :=
  if timeline.steps = [] then 0 else min (max step timeline.firstStep) timeline.lastStep

end ReplayTimeline

/-- The artifacts of a run that may carry a step. -/
def RunArtifacts.items (artifacts : RunArtifacts) : List Dict :=
  artifacts.events ++ artifacts.snapshots ++ artifacts.accounts ++ artifacts.logs

/-- The steps present, or else those that the report counts. -/
def timelineSteps (artifacts : RunArtifacts) : List ℤ :=
  let present := sortedSet (artifacts.items.filterMap entryStep)
  let maxStep := (intValue (artifacts.report.get "total_steps")).getD 0
  if present ≠ [] then present
  else if 0 < maxStep then (List.range (maxStep.toNat + 1)).map Int.ofNat
  else [0]

def replayTimeline (artifacts : RunArtifacts) : Except PlaybackError ReplayTimeline :=
  ReplayTimeline.create (timelineSteps artifacts)

/-! Symbols. -/

def configuredSymbols (config : Dict) : List String :=
  match config.get "symbols" with
  | some (.list symbols) => symbols.filterMap fun symbol => stringValue (some symbol)
  | _ => []

def snapshotSymbols (snapshot : Dict) : List String :=
  (stringValue (snapshot.get "symbol")).toList ++ dictKeys (snapshot.get "symbols")

/-- The only key of a dict. -/
def singleKey (value : Option Value) : Option String :=
  match dictKeys value with
  | [key] => some key
  | _ => none

def accountSymbol (account : Dict) : Option String :=
  match stringValue (account.get "symbol") with
  | some direct => some direct
  | none =>
    match singleKey (account.get "positions") with
    | some key => some key
    | none => singleKey (account.get "mark_to_market")

inductive TimelineCategory
  | command
  | event
  | snapshot
  | account
  | log
  deriving DecidableEq

def entrySymbol (category : TimelineCategory) (payload : Dict) (defaultSymbol : Option String) :
    Option String :=
  match category with
  | .event =>
    orString (orString (stringValue ((eventData payload).get "symbol"))
      (stringValue (payload.get "symbol"))) defaultSymbol
  | .snapshot =>
    match stringValue (payload.get "symbol") with
    | some value => some value
    | none =>
      match singleKey (payload.get "symbols") with
      | some key => some key
      | none => defaultSymbol
  | .account => orString (accountSymbol payload) defaultSymbol
  | .command | .log => orString (stringValue (payload.get "symbol")) defaultSymbol

def symbolsFromArtifacts (artifacts : RunArtifacts) : List String :=
  configuredSymbols artifacts.config ++
    (artifacts.events.filterMap fun event => entrySymbol .event event none) ++
    artifacts.snapshots.flatMap snapshotSymbols ++
    artifacts.accounts.flatMap fun account =>
      (accountSymbol account).toList ++ dictKeys (account.get "positions") ++
        dictKeys (account.get "mark_to_market")

def payloadReferencesSymbol (payload : Dict) (symbol : String) : Prop :=
  stringValue (payload.get "symbol") = some symbol ∨
    stringValue ((eventData payload).get "symbol") = some symbol ∨
    symbol ∈ dictKeys (payload.get "symbols") ∨
    symbol ∈ dictKeys (payload.get "positions") ∨
    symbol ∈ dictKeys (payload.get "mark_to_market")

instance (payload : Dict) (symbol : String) : Decidable (payloadReferencesSymbol payload symbol) :=
  inferInstanceAs (Decidable (_ ∨ _ ∨ _ ∨ _ ∨ _))

/-- The symbols of a frame that is not restricted to one. -/
def frameSymbols (symbol : Option String) (events snapshots accounts : List Dict)
    (artifacts : RunArtifacts) : List String :=
  match symbol with
  | some symbol => [symbol]
  | none =>
    let symbols := (events.filterMap fun event => entrySymbol .event event none) ++
      snapshots.flatMap snapshotSymbols ++
      accounts.flatMap fun account =>
        (accountSymbol account).toList ++ dictKeys (account.get "positions")
    if symbols ≠ [] then symbols else symbolsFromArtifacts artifacts

/-! Entries as texts. -/

/-- The texts of containers, and the order in which the set of the keys of order ids is walked. -/
structure Host where
  render : Value → String
  orderIdKeys : List String
  orderIdKeys_perm : orderIdKeys.Perm
    ["order_id", "maker_order_id", "taker_order_id", "resulting_order_id", "resting_order_id"]

variable (host : Host)

def entryType (category : TimelineCategory) (payload : Dict) : String :=
  match category with
  | .event => (orString (stringValue (payload.get "type")) none).getD "event"
  | .snapshot => (orString (stringValue (payload.get "type")) none).getD "snapshot"
  | .account => (orString (stringValue (payload.get "type")) none).getD "account"
  | .log =>
    (orString (stringValue (payload.get "level"))
      (orString (stringValue (payload.get "type")) none)).getD "log"
  | .command => "command"

def firstOrderId (data : Dict) : Option Value := firstKey data host.orderIdKeys

def Host.str (value : Option Value) : String := pyStr host.render value

/-- A labelled part of a summary, for a value that is there. -/
def summaryPart (label : String) (value : Option String) : List String :=
  value.toList.map fun text => label ++ text

def entrySummary (category : TimelineCategory) (entryType : String) (payload : Dict) : String :=
  match category with
  | .event =>
    let data := eventData payload
    let qty := orInt (intValue (data.get "qty")) (intValue (data.get "last_fill_qty"))
    String.intercalate " " (entryType ::
      (summaryPart "symbol=" (stringValue (data.get "symbol")) ++
        summaryPart "order=" ((firstOrderId host data).map fun value => host.str (some value)) ++
        summaryPart "qty=" (qty.map toString) ++
        summaryPart "price=" ((intValue (data.get "price")).map toString)))
  | .snapshot =>
    match entryStep payload with
    | some step => "snapshot step=" ++ toString step
    | none => "snapshot"
  | .account =>
    match stringValue (payload.get "account_id") with
    | some accountId => "account " ++ accountId
    | none => "account"
  | .log => (orString (stringValue (payload.get "message")) none).getD entryType
  | .command => entryType

/-- `event_summaries`. -/
def eventSummaries (symbol : Option String) (events : List Dict) : List Dict :=
  events.mapIdx fun index event =>
    [("sequence", .int index), ("type", .str (entryType .event event)),
      ("summary", .str (entrySummary host .event (entryType .event event) event)),
      ("symbol", (entrySymbol .event event symbol).elim .null .str)]

/-! Trades and accounts. -/

/-- A value in a dict of a frame, where `None` stands for a missing one. -/
def orNull (value : Option Value) : Value := value.getD .null

def isTradeExecuted (event : Dict) : Bool := stringValue (event.get "type") = some "TradeExecuted"

def tradePayload (event : Dict) : Dict :=
  let data := eventData event
  let text (key default : String) := host.str (some ((data.get key).getD (.str default)))
  let made := text "maker_order_id" "m" ++ "-" ++ text "taker_order_id" "t" ++ "-" ++ text "step" ""
  [("trade_id", orNull (pyOr (data.get "trade_id") (pyOr (data.get "execution_id")
      (some (.str made))))),
    ("symbol", orNull (data.get "symbol")), ("price", orNull (data.get "price")),
    ("qty", orNull (data.get "qty")),
    ("aggressor_side", orNull (pyOr (data.get "aggressor_side") (data.get "side"))),
    ("timestamp", orNull (entryTimestamp event)), ("step", (entryStep event).elim .null .int),
    ("event", .dict event)]

/-- The trades among some events. -/
def trades (events : List Dict) : List Dict :=
  (events.filter isTradeExecuted).map (tradePayload host)

def accountDelta (account : Dict) : Dict :=
  [("account_id", orNull (account.get "account_id")),
    ("step", (entryStep account).elim .null .int),
    ("positions", (account.get "positions").getD (.dict [])),
    ("cash", orNull (account.get "cash")),
    ("pnl", orNull (pyOr (account.get "pnl")
      (pyOr (account.get "realized_pnl") (account.get "unrealized_pnl")))),
    ("equity", orNull (pyOr (account.get "equity") (account.get "net_liquidation"))),
    ("exposure", orNull (pyOr (account.get "exposure") (account.get "gross_exposure"))),
    ("leverage", orNull (account.get "leverage")), ("payload", .dict account)]

/-! Books. -/

/-- The nearest integer, ties to even. -/
def roundHalfEven (q : ℚ) : ℤ :=
  if q - ⌊q⌋ < 1 / 2 ∨ q - ⌊q⌋ = 1 / 2 ∧ ⌊q⌋ % 2 = 0 then ⌊q⌋ else ⌊q⌋ + 1

/-- `n / d` of integers: the nearest double, or an error beyond the doubles. -/
def trueDivide (n d : ℤ) : Except PlaybackError Double :=
  let q : ℚ := n / d
  let unit : ℚ := 2 ^ max (Int.log 2 |q| - 52) (-1074)
  let value := roundHalfEven (q / unit) * unit
  if 2 ^ 1024 ≤ |value| then .error .overflowError else .ok (.finite value)

structure Book where
  bid : Option ℤ
  ask : Option ℤ
  bidQty : Option ℤ
  askQty : Option ℤ
  spread : Option ℤ
  mid : Option Double
  imbalance : Option Double
  bids : Value
  asks : Value

def midOf (bid ask : Option ℤ) : Except PlaybackError (Option Double) :=
  match ask, bid with
  | some ask, some bid => (trueDivide (ask + bid) 2).map some
  | _, _ => .ok none

def imbalanceOf (bidQty askQty : Option ℤ) : Except PlaybackError (Option Double) :=
  match bidQty, askQty with
  | some bidQty, some askQty =>
    if 0 < bidQty + askQty then (trueDivide (bidQty - askQty) (bidQty + askQty)).map some
    else .ok none
  | _, _ => .ok none

/-- The book that a value shows, or an empty one. -/
def bookPayload (value : Value) : Except PlaybackError (Option Book) :=
  match value with
  | .dict value => do
    let bid := firstInt value ["best_bid", "bid", "bid_price"]
    let ask := firstInt value ["best_ask", "ask", "ask_price"]
    let bidQty := firstInt value ["best_bid_qty", "bid_qty", "bid_quantity"]
    let askQty := firstInt value ["best_ask_qty", "ask_qty", "ask_quantity"]
    let spread := do return (← ask) - (← bid)
    let mid ← midOf bid ask
    let imbalance ← imbalanceOf bidQty askQty
    return some ⟨bid, ask, bidQty, askQty, spread, mid, imbalance,
      (Dict.get value "bids").getD (.list []), (Dict.get value "asks").getD (.list [])⟩
  | _ => .ok none

abbrev Books := List (String × Option Book)

/-- `selected[symbol] = book`. -/
def setBook (symbol : String) (book : Option Book) : Books → Books
  | [] => [(symbol, book)]
  | item :: items =>
    if item.1 = symbol then (symbol, book) :: items else item :: setBook symbol book items

/-- The books that a snapshot shows, by their symbols. -/
def snapshotBooks (snapshot : Dict) : Dict :=
  (stringValue (snapshot.get "symbol")).toList.map (fun symbol =>
    (symbol, (snapshot.get "snapshot").getD (.dict snapshot))) ++ dictItems (snapshot.get "symbols")

def addBook (symbols : List String) (selected : Books) (item : String × Value) :
    Except PlaybackError Books := do
  if item.1 ∈ symbols then return setBook item.1 (← bookPayload item.2) selected
  else return selected

/-- The snapshots in the order of their steps. -/
def sortedSnapshots (snapshots : List Dict) : List Dict :=
  snapshots.insertionSort fun x y => (entryStep x).getD 0 ≤ (entryStep y).getD 0

/-- Whether a snapshot is taken by a step. -/
def takenBy (step : ℤ) (snapshot : Dict) : Bool := (entryStep snapshot).any (· ≤ step)

def topOfBookForFrame (snapshots : List Dict) (step : ℤ) (symbols : List String) :
    Except PlaybackError Books :=
  let books := ((sortedSnapshots snapshots).filter (takenBy step)).flatMap snapshotBooks
  books.foldlM (addBook symbols) []

structure MarketMetrics where
  tradeCount : ℕ
  volume : ℤ
  notional : ℤ
  topOfBook : Books

def marketMetrics (topOfBook : Books) (trades : List Dict) : MarketMetrics :=
  let qty (trade : Dict) := (intValue (trade.get "qty")).getD 0
  let price (trade : Dict) := (intValue (trade.get "price")).getD 0
  let notional (trade : Dict) := price trade * qty trade
  ⟨trades.length, (trades.map qty).sum, (trades.map notional).sum, topOfBook⟩

/-! Frames. -/

structure ReplayFrame where
  step : ℤ
  timestamp : Option Value
  symbols : List String
  symbol : Option String
  trades : List Dict
  snapshots : List Dict
  topOfBook : Books
  accountDeltas : List Dict
  accounts : List Dict
  marketMetrics : MarketMetrics
  eventSummaries : List Dict

/-- The first value that is not `None`. -/
def firstPresent (values : List (Option Value)) : Option Value :=
  values.findSome? fun value =>
    match value with
    | some .null => none
    | value => value

def stepItems (items : List Dict) (step : ℤ) (symbol : Option String) : List Dict :=
  (items.filter fun item => entryStep item = some step).filter fun item =>
    ∀ wanted ∈ symbol,
      payloadReferencesSymbol item wanted ∨ entrySymbol .snapshot item none = some wanted

/-- What a frame is asked for. -/
structure FrameQuery where
  symbol : Option String
  includeSnapshots : Bool
  includeEvents : Bool
  includeAccounts : Bool

/-- The query without parameters. -/
def FrameQuery.all : FrameQuery := ⟨none, true, true, true⟩

def buildReplayFrame (artifacts : RunArtifacts) (query : FrameQuery) (step : ℤ) :
    Except PlaybackError ReplayFrame := do
  let items (stored : List Dict) := stepItems stored step query.symbol
  let events := if query.includeEvents then items artifacts.events else []
  let snapshots := if query.includeSnapshots then items artifacts.snapshots else []
  let accounts := if query.includeAccounts then items artifacts.accounts else []
  let selectedSymbols := sortedSet (frameSymbols query.symbol events snapshots accounts artifacts)
  let topOfBook ← topOfBookForFrame artifacts.snapshots step selectedSymbols
  return {
    step
    timestamp := firstPresent ((events ++ snapshots ++ accounts).map entryTimestamp)
    symbols := selectedSymbols
    symbol := query.symbol <|> (if selectedSymbols.length = 1 then selectedSymbols.head? else none)
    trades := trades host events
    snapshots
    topOfBook
    accountDeltas := accounts.map accountDelta
    accounts
    marketMetrics := marketMetrics topOfBook (trades host events)
    eventSummaries := eventSummaries host query.symbol events }

def frameHasPayload (frame : ReplayFrame) : Bool :=
  frame.trades ≠ [] || frame.snapshots ≠ [] || frame.accountDeltas ≠ [] ||
    frame.eventSummaries ≠ []

/-! Ranges of frames. -/

structure ReplayRangeResponse where
  startStep : ℤ
  endStep : ℤ
  frames : List ReplayFrame
  nextStartStep : Option ℤ
  totalFrames : ℕ

def getReplayRange (artifacts : RunArtifacts) (query : FrameQuery) (startStep endStep : ℤ) :
    Except PlaybackError ReplayRangeResponse := do
  let timeline ← replayTimeline artifacts
  let boundedStart := min (timeline.clamp startStep) (timeline.clamp endStep)
  let boundedEnd := max (timeline.clamp startStep) (timeline.clamp endStep)
  let steps := timeline.steps.filter fun step => boundedStart ≤ step ∧ step ≤ boundedEnd
  let frames ← steps.mapM (buildReplayFrame host artifacts query)
  return {
    startStep := boundedStart
    endStep := boundedEnd
    frames := frames.filter frameHasPayload
    nextStartStep := timeline.steps.find? fun candidate => boundedEnd < candidate
    totalFrames := steps.length }

end ReplayService
end Tes
