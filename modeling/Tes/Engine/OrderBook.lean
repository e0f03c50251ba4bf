import Mathlib.Data.Finmap
import Mathlib.Algebra.BigOperators.Group.List.Basic
import Tes.Library.OrderedMap
import Tes.Engine.Events

/-! The order book of one symbol: three queues at each price level, and the index that
locates every resting order. -/
namespace Tes

inductive QueueKind
  | displayed
  | iceberg
  | hidden
  deriving DecidableEq, Repr

/-- One price level. Each queue is listed from its front. -/
structure Level where
  aggregateQty : ℤ := 0
  displayedOrders : List Order := []
  icebergOrders : List Order := []
  hiddenOrders : List Order := []
  deriving DecidableEq, Repr

/-- Where an order rests. The list node the index points at is the node of this queue
that holds the key's order. -/
structure IndexEntry where
  side : Side
  price : ℤ
  queue : QueueKind
  deriving DecidableEq, Repr

abbrev PriceLevels (side : Side) := OrderedMap ℤ Level side.before

abbrev OrderIndex := Finmap fun _ : OrderId => IndexEntry

structure FillResult where
  makerId : OrderId
  price : ℤ
  qty : ℤ
  makerRemainingQty : ℤ
  makerVisibility : OrderVisibility
  makerFilled : Bool
  replenished : Option IcebergReplenished
  deriving DecidableEq, Repr

structure Depth where
  bids : List (ℤ × ℤ)
  asks : List (ℤ × ℤ)
  deriving DecidableEq, Repr

structure OrderBook where
  bids : PriceLevels .bid := ∅
  asks : PriceLevels .ask := ∅
  orderIndex : OrderIndex := ∅

def visibleQty (order : Order) : ℤ :=
  if order.visibility = .hidden then 0 else order.qty

def totalRemainingQty (order : Order) : ℤ := order.qty + order.reserveQty

namespace Level

def queue (level : Level) : QueueKind → List Order
  | .displayed => level.displayedOrders
  | .iceberg => level.icebergOrders
  | .hidden => level.hiddenOrders

def setQueue (level : Level) (kind : QueueKind) (orders : List Order) : Level :=
  match kind with
  | .displayed => { level with displayedOrders := orders }
  | .iceberg => { level with icebergOrders := orders }
  | .hidden => { level with hiddenOrders := orders }

/-- The level after its displayed total changes. -/
def addAggregate (level : Level) (delta : ℤ) : Level :=
  { level with aggregateQty := level.aggregateQty + delta }

/-- Every order of the level, in matching order. -/
def orders (level : Level) : List Order :=
  level.displayedOrders ++ level.icebergOrders ++ level.hiddenOrders

def totalQty (level : Level) : ℤ := (level.orders.map totalRemainingQty).sum

def isEmpty (level : Level) : Bool := level.orders.isEmpty

end Level

/-! Searches over one side, best price first. -/
section Levels
variable {side : Side}

def bestDisplayedPrice (levels : PriceLevels side) : Option ℤ :=
  (levels.findFirst fun _ level => 0 < level.aggregateQty).map Prod.fst

def bestMatchPriceFromLevels (levels : PriceLevels side) (takerSide : Side) (limitPrice : ℤ) :
    Option ℤ :=
  ((levels.entries.takeWhile fun e => crosses takerSide limitPrice e.1).find? fun e =>
    0 < e.2.totalQty).map Prod.fst

/-- The displayed levels, at most `limit` of them where there is a limit. -/
def appendLevels (levels : PriceLevels side) (limit : Option ℕ) : List (ℤ × ℤ) :=
  let shown := (levels.entries.filter fun e => 0 < e.2.aggregateQty).map fun e =>
    (e.1, e.2.aggregateQty)
  match limit with
  | none => shown
  | some n => shown.take n

def firstMatchAtOrBetter (levels : PriceLevels side) (auctionPrice : ℤ) : Option (ℤ × Level) :=
  (levels.entries.takeWhile fun e => crosses side.opposite auctionPrice e.1).find? fun e =>
    0 < e.2.totalQty

/-- Write a level back, or drop it when it holds no order. -/
def putLevel (levels : PriceLevels side) (price : ℤ) (level : Level) : PriceLevels side :=
  if level.isEmpty then levels.erase price else levels.insert price level

/-- What a fill can take from an order at the front of its queue. -/
def availableQty (kind : QueueKind) (maker : Order) : ℤ :=
  if kind = .hidden then maker.reserveQty else maker.qty

def takeFrom (kind : QueueKind) (maker : Order) (traded : ℤ) : Order :=
  if kind = .hidden then { maker with reserveQty := maker.reserveQty - traded }
  else { maker with qty := maker.qty - traded }

/-- The visible clip is spent and there is a reserve to renew it from. -/
def clipSpent (kind : QueueKind) (maker : Order) : Prop :=
  kind = .iceberg ∧ maker.qty = 0 ∧ 0 < maker.reserveQty

instance (kind : QueueKind) (maker : Order) : Decidable (clipSpent kind maker) :=
  inferInstanceAs (Decidable (_ ∧ _ ∧ _))

def renewClip (maker : Order) : Order :=
  let replenished := min maker.displayQty maker.reserveQty
  { maker with reserveQty := maker.reserveQty - replenished, qty := replenished }

def replenishedEvent (moved : Order) : IcebergReplenished :=
  { id := moved.id, side := moved.side, price := moved.price, replenishedQty := moved.qty,
    reserveQty := moved.reserveQty, totalRemainingQty := totalRemainingQty moved }

/-- Take from the front of one queue of a level. The remaining orders of the queue are
`rest`; a spent iceberg clip is renewed from its reserve at the back of the queue. -/
def fillFromQueue (levels : PriceLevels side) (index : OrderIndex) (price : ℤ) (level : Level)
    (kind : QueueKind) (maker : Order) (rest : List Order) (qty : ℤ) :
    FillResult × PriceLevels side × OrderIndex :=
  let traded := min qty (availableQty kind maker)
  let maker := takeFrom kind maker traded
  let level := if kind = .hidden then level else level.addAggregate (-traded)
  let result : FillResult :=
    { makerId := maker.id, price := maker.price, qty := traded,
      makerRemainingQty := totalRemainingQty maker, makerVisibility := maker.visibility,
      makerFilled := false, replenished := none }
  if totalRemainingQty maker = 0 then
    ({ result with makerFilled := true }, putLevel levels price (level.setQueue kind rest),
      index.erase maker.id)
  else if clipSpent kind maker then
    let moved := renewClip maker
    ({ result with
        makerRemainingQty := totalRemainingQty moved
        replenished := some (replenishedEvent moved) },
      putLevel levels price
        ((level.addAggregate moved.qty).setQueue kind (rest ++ [moved])),
      index.insert moved.id ⟨moved.side, moved.price, .iceberg⟩)
  else
    (result, putLevel levels price (level.setQueue kind (maker :: rest)), index)

def fillFromLevel (levels : PriceLevels side) (index : OrderIndex) (price : ℤ) (level : Level)
    (qty : ℤ) : Option (FillResult × PriceLevels side × OrderIndex) :=
  match level.displayedOrders, level.icebergOrders, level.hiddenOrders with
  | maker :: rest, _, _ => some (fillFromQueue levels index price level .displayed maker rest qty)
  | [], maker :: rest, _ => some (fillFromQueue levels index price level .iceberg maker rest qty)
  | [], [], maker :: rest => some (fillFromQueue levels index price level .hidden maker rest qty)
  | [], [], [] => none

def fillBestFromLevels (levels : PriceLevels side) (index : OrderIndex) (qty : ℤ) :
    Option (FillResult × PriceLevels side × OrderIndex) :=
  (levels.findFirst fun _ level => 0 < level.totalQty).bind fun e =>
    fillFromLevel levels index e.1 e.2 qty

def eraseEmptyLevel (levels : PriceLevels side) (price : ℤ) : PriceLevels side :=
  match levels.find? price with
  | some level => if level.isEmpty then levels.erase price else levels
  | none => levels

end Levels

namespace OrderBook

/-- One side of the book. -/
def levels (book : OrderBook) : (side : Side) → PriceLevels side
  | .bid => book.bids
  | .ask => book.asks

def setLevels (book : OrderBook) : (side : Side) → PriceLevels side → OrderBook
  | .bid, levels => { book with bids := levels }
  | .ask, levels => { book with asks := levels }

/-- The book with one side and the index replaced. -/
def withSide (book : OrderBook) (side : Side) (levels : PriceLevels side) (index : OrderIndex) :
    OrderBook :=
  { book.setLevels side levels with orderIndex := index }

def bestBid (book : OrderBook) : Option ℤ := bestDisplayedPrice book.bids
def bestAsk (book : OrderBook) : Option ℤ := bestDisplayedPrice book.asks

def bestMatchPrice (book : OrderBook) (takerSide : Side) (limitPrice : ℤ) : Option ℤ :=
  bestMatchPriceFromLevels (book.levels takerSide.opposite) takerSide limitPrice

def frontOfLevel (book : OrderBook) (side : Side) (price : ℤ) : Option Order :=
  ((book.levels side).find? price).bind fun level => level.orders.head?

/-- The resting order of an id, through the index. -/
def findOrder (book : OrderBook) (id : OrderId) : Option Order :=
  (book.orderIndex.lookup id).bind fun entry =>
    ((book.levels entry.side).find? entry.price).bind fun level =>
      (level.queue entry.queue).find? fun order => order.id = id

def fillBest (book : OrderBook) (side : Side) (qty : ℤ) : Option (FillResult × OrderBook) :=
  if isValidQty qty then
    (fillBestFromLevels (book.levels side) book.orderIndex qty).map fun (result, levels, index) =>
      (result, book.withSide side levels index)
  else none

def fillBestAtOrBetter (book : OrderBook) (side : Side) (auctionPrice qty : ℤ) :
    Option (FillResult × OrderBook) :=
  if isValidQty qty then
    ((firstMatchAtOrBetter (book.levels side) auctionPrice).bind fun e =>
      fillFromLevel (book.levels side) book.orderIndex e.1 e.2 qty).map
        fun (result, levels, index) =>
          (result, book.withSide side levels index)
  else none

/-- What a taker with this limit could take, all liquidity counted. -/
def executableQty (book : OrderBook) (takerSide : Side) (limitPrice : ℤ) : ℤ :=
  (((book.levels takerSide.opposite).entries.takeWhile fun e =>
    crosses takerSide limitPrice e.1).map fun e => e.2.totalQty).sum

/-- The displayed depth; without a limit it lists every displayed level. -/
def depth (book : OrderBook) (limit : Option ℕ) : Depth :=
  ⟨appendLevels book.bids limit, appendLevels book.asks limit⟩

/-- The top-of-book event, if the displayed best prices are no longer the given ones. -/
def maybeEmitTopOfBookChange (book : OrderBook) (symbol : Symbol)
    (previousBestBid previousBestAsk : Option ℤ) : List Event :=
  if previousBestBid ≠ book.bestBid ∨ previousBestAsk ≠ book.bestAsk then
    [.topOfBook book.bestBid book.bestAsk symbol]
  else []

/-- How an order of each visibility splits its quantity into a visible and a reserve part. -/
def arrange (order : Order) : OrderVisibility → Order
  | .displayed =>
    { order with visibility := .displayed, totalQty := order.qty, displayQty := order.qty,
                 reserveQty := 0 }
  | .hidden =>
    { order with visibility := .hidden, totalQty := order.qty, displayQty := 0,
                 reserveQty := order.qty, qty := 0 }
  | .iceberg =>
    let visible := min order.qty order.displayQty
    { order with visibility := .iceberg, totalQty := order.qty,
                 reserveQty := order.qty - visible, qty := visible }

def queueKind : OrderVisibility → QueueKind
  | .displayed => .displayed
  | .hidden => .hidden
  | .iceberg => .iceberg

def acceptedEvent (order : Order) : Event :=
  match order.visibility with
  | .displayed => .orderAccepted order.id order.side order.price order.qty defaultSymbol
  | .hidden => .hiddenOrderAccepted order.id order.side order.price order.totalQty defaultSymbol
  | .iceberg =>
    .icebergOrderAccepted order.id order.side order.price order.totalQty order.displayQty
      order.reserveQty order.qty defaultSymbol

/-- What `addOrder` turns away: it then changes nothing and returns no event. -/
def refuses (book : OrderBook) (order : Order) (visibility : OrderVisibility) : Prop :=
  ¬ isValidPrice order.price ∨ ¬ isValidQty order.qty ∨ order.id ∈ book.orderIndex ∨
    visibility = .iceberg ∧ (¬ isValidQty order.displayQty ∨ order.qty < order.displayQty)

instance (book : OrderBook) (order : Order) (visibility : OrderVisibility) :
    Decidable (book.refuses order visibility) :=
  inferInstanceAs (Decidable (_ ∨ _ ∨ _ ∨ _ ∧ (_ ∨ _)))

/-- Put an order at the back of its queue. -/
def insertOrder (book : OrderBook) (order : Order) : OrderBook :=
  let kind := queueKind order.visibility
  let level := ((book.levels order.side).find? order.price).getD {}
  let added := (level.addAggregate (visibleQty order)).setQueue kind (level.queue kind ++ [order])
  book.withSide order.side ((book.levels order.side).insert order.price added)
    (book.orderIndex.insert order.id ⟨order.side, order.price, kind⟩)

def addOrder (book : OrderBook) (order : Order) (visibility : OrderVisibility) :
    List Event × OrderBook :=
  if book.refuses order visibility then ([], book)
  else
    let order := arrange order visibility
    let added := book.insertOrder order
    (acceptedEvent order ::
      added.maybeEmitTopOfBookChange defaultSymbol book.bestBid book.bestAsk, added)

def addLimitOrder (book : OrderBook) (order : Order) : List Event × OrderBook :=
  book.addOrder order .displayed

def addHiddenOrder (book : OrderBook) (order : Order) : List Event × OrderBook :=
  book.addOrder order .hidden

def addIcebergOrder (book : OrderBook) (order : Order) : List Event × OrderBook :=
  book.addOrder order .iceberg

/-- Take the indexed order out of its queue, and its level away if that empties it. -/
def eraseByIndex (book : OrderBook) (id : OrderId) (entry : IndexEntry) : OrderBook :=
  match (book.levels entry.side).find? entry.price with
  | none => book
  | some level =>
    let queue := level.queue entry.queue
    let visible := ((queue.find? fun order => order.id = id).map visibleQty).getD 0
    let erased := (level.addAggregate (-visible)).setQueue entry.queue
      (queue.eraseP fun order => order.id = id)
    book.setLevels entry.side
      (eraseEmptyLevel ((book.levels entry.side).insert entry.price erased) entry.price)

def cancel (book : OrderBook) (id : OrderId) : List Event × OrderBook :=
  match book.orderIndex.lookup id with
  | none => ([], book)
  | some entry =>
    let erased := book.eraseByIndex id entry
    let canceled := { erased with orderIndex := erased.orderIndex.erase id }
    (.orderCanceled id defaultSymbol ::
      canceled.maybeEmitTopOfBookChange defaultSymbol book.bestBid book.bestAsk, canceled)

/-- The index sends the order's id to that side and price. -/
def indexedAt (book : OrderBook) (side : Side) (price : ℤ) (order : Order) : Bool :=
  match book.orderIndex.lookup order.id with
  | none => false
  | some entry => decide (entry.side = side ∧ entry.price = price)

/-- The book's own check of one side. -/
def validateSide (book : OrderBook) (side : Side) : Bool :=
  (book.levels side).entries.all fun (price, level) =>
    level.orders.all (book.indexedAt side price) &&
    decide ((level.orders.map visibleQty).sum = level.aggregateQty) && !level.isEmpty

def liveOrders (book : OrderBook) (side : Side) : ℕ :=
  ((book.levels side).entries.map fun e => e.2.orders.length).sum

def validateInvariants (book : OrderBook) : Bool :=
  book.validateSide .bid && book.validateSide .ask &&
    decide (book.orderIndex.keys.card = book.liveOrders .bid + book.liveOrders .ask)

end OrderBook
end Tes
