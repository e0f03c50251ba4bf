import Tes.Engine.Operations

/-! The order entries and auction trades of an operation: which orders it lets in, and in
which states. Conditions on runs are conditions on these. -/
namespace Tes
open MatchingEngine

/-- An order that is let in, with the state that lets it in. -/
abbrev Entry := MatchingEngine × Taker

namespace MatchingEngine

/-- The entry of an order, unless it is rejected or killed. -/
def entries (s : MatchingEngine) (t : Taker) : List Entry :=
  let touched := s.touchAccount t.accountId t.symbol
  if s.validateEntry t.symbol t.price t.remaining t.visibility t.displayQty = none ∧
      touched.validateOrderRisk t.accountId t.symbol t.side t.price t.remaining none = none ∧
      (touched.inAuction t.symbol ∨
        ¬ (t.tif = .fok ∧ (touched.bookFor t.symbol).executableQty t.side t.price < t.remaining))
  then [(touched, t)]
  else []

/-- A displayed order. -/
def limitTaker (accountId : AccountId) (symbol : Symbol) (id : OrderId) (side : Side)
    (price qty : ℤ) (tif : TimeInForce) : Taker :=
  { accountId, symbol, id, side, price, remaining := qty, tif, visibility := .displayed,
    displayQty := 0 }

/-- The entry of a market order, for which the opposite side must show liquidity. -/
def marketEntries (s : MatchingEngine) (accountId : AccountId) (symbol : Symbol) (id : OrderId)
    (side : Side) (qty : ℤ) : List Entry :=
  let book := s.bookFor symbol
  let (best, opposite) := match side with
    | .bid => (book.bestAsk, (book.depth none).asks)
    | .ask => (book.bestBid, (book.depth none).bids)
  if best = none then []
  else s.entries (limitTaker accountId symbol id side (marketLimit opposite qty 0) qty .ioc)

def childEntries (s : MatchingEngine) (stop : StopOrderState) (symbol : Symbol) (id : OrderId) :
    List Entry :=
  match stop.limitPrice with
  | some limit =>
    s.entries (limitTaker stop.accountId symbol id stop.side limit stop.qty .gtc)
  | none => s.marketEntries stop.accountId symbol id stop.side stop.qty

def triggerEntries (symbol : Symbol) : List OrderId → MatchingEngine → List Entry
  | [], _ => []
  | id :: ready, s =>
    match s.stopOrdersById.lookup id with
    | none => triggerEntries symbol ready s
    | some stop =>
      (s.triggerStop symbol id stop).childEntries stop symbol s.nextOrderId ++
        match placeChild stop symbol s.nextOrderId (s.triggerStop symbol id stop) with
        | .ok _ s' => triggerEntries symbol ready s'
        | .error _ _ => []

def cascadeEntries (symbol : Symbol) : ℕ → MatchingEngine → List Entry
  | 0, _ => []
  | fuel + 1, s =>
    match s.triggerPrice symbol with
    | none => []
    | some current =>
      triggerEntries symbol (s.readyStops symbol current) s ++
        match triggerAll symbol (s.readyStops symbol current) s with
        | .ok (true, _) s' => cascadeEntries symbol fuel s'
        | _ => []

/-- The entries of the stops that an entry triggers. -/
def followEntries (symbol : Symbol) (entry : Engine (List Event)) (s : MatchingEngine) :
    List Entry :=
  match entry s with
  | .ok _ s' =>
    if s'.isHalted symbol then []
    else cascadeEntries symbol (s'.stopOrdersById.keys.card + 1) s'
  | .error _ _ => []

/-- The entries of an order and of the stops it triggers. -/
def placeEntries (s : MatchingEngine) (t : Taker) : List Entry :=
  s.entries t ++ followEntries t.symbol
    (placeVisibleOrderWithAccountAndId t.accountId t.symbol t.id t.side t.price t.remaining t.tif
      t.visibility t.displayQty) s

/-- The entry that replaces a resting order, once its own is out of the book. -/
def replaceEntries (s : MatchingEngine) (accountId : AccountId) (id : OrderId)
    (newPrice newQty : ℤ) : List Entry :=
  match s.orderOwnershipById.lookup id with
  | none => []
  | some owner =>
    if owner.accountId = accountId ∧ s.validateReplace owner newPrice newQty = none ∧
        s.validateOrderRisk accountId owner.symbol owner.side newPrice newQty (some id) = none then
      match MatchingEngine.cancel accountId id (s.replaceReleased accountId owner.symbol id) with
      | .ok _ s' =>
        s'.entries (limitTaker accountId owner.symbol id owner.side newPrice newQty .gtc)
      | .error _ _ => []
    else []

/-- The entries of the stops that a replaced stop order triggers. -/
def replaceStopEntries (s : MatchingEngine) (accountId : AccountId) (id : OrderId)
    (newStopPrice : ℤ) (newLimitPrice : Option ℤ) (newQty : ℤ) : List Entry :=
  match s.stopOrdersById.lookup id with
  | none => []
  | some stop =>
    let limitPrice := newLimitPrice.orElse fun _ => stop.limitPrice
    if stop.accountId = accountId ∧ isValidPrice newStopPrice ∧
        (∀ limit ∈ limitPrice, isValidPrice limit) ∧ isValidQty newQty ∧
        s.validateOrderRisk accountId stop.symbol stop.side (limitPrice.getD newStopPrice) newQty
          none = none then
      followEntries stop.symbol (pure [])
        (s.withReplacedStop id stop newStopPrice newQty limitPrice)
    else []

/-- The (book, quantity) pairs of the trades of an auction at `price`. -/
def auctionSteps (price : ℤ) : ℕ → OrderBook → ℤ → List (OrderBook × ℤ)
  | 0, _, _ => []
  | fuel + 1, book, remaining =>
    match nextAuctionQty book price remaining with
    | none => []
    | some traded =>
      (book, traded) :: auctionSteps price fuel
        (auctionFill (auctionFill book .bid price traded).2 .ask price traded).2
        (remaining - traded)

/-- The (book, price, quantity) triples of the trades of an uncross. -/
def uncrossSteps (s : MatchingEngine) (symbol : Symbol) : List (OrderBook × ℤ × ℤ) :=
  let indicative := s.computeAuctionIndicative symbol
  match indicative.price with
  | none => []
  | some price =>
    if s.priceInBand symbol price then
      (auctionSteps price indicative.qty.toNat (s.bookFor symbol) indicative.qty).map
        fun (book, traded) => (book, price, traded)
    else []

end MatchingEngine

namespace MatchingEngine

/-! The symbol of the order or the stop order that an id names. -/

def orderSymbol (s : MatchingEngine) (id : OrderId) : Symbol :=
  (s.orderOwnershipById.lookup id).elim defaultSymbol OrderOwnership.symbol

def stopSymbol (s : MatchingEngine) (id : OrderId) : Symbol :=
  (s.stopOrdersById.lookup id).elim defaultSymbol StopOrderState.symbol

def cancelSymbol (s : MatchingEngine) (id : OrderId) : Symbol :=
  match s.stopOrdersById.lookup id with
  | some stop => stop.symbol
  | none => s.orderSymbol id

end MatchingEngine

namespace Op

/-- The symbol an operation acts on. -/
def symbol (op : Op) (s : MatchingEngine) : Symbol :=
  match op with
  | .setFeeModel _ | .setAccountRiskConfig _ _ => defaultSymbol
  | .setAccountState _ symbol _ _ | .haltSymbol symbol _ | .resumeSymbol symbol
  | .setPriceBands symbol _ _ | .clearPriceBands symbol | .setTradingPhase symbol _
  | .placeLimitOrder _ symbol _ _ _ _ | .placeHiddenOrder _ symbol _ _ _
  | .placeIcebergOrder _ symbol _ _ _ _ | .placeMarketOrder _ symbol _ _
  | .placeStopOrder _ symbol _ _ _ | .placeStopLimitOrder _ symbol _ _ _ _ | .uncross symbol =>
    symbol
  | .cancel _ id => s.cancelSymbol id
  | .replaceOrder _ id _ _ => s.orderSymbol id
  | .replaceStopOrder _ id _ _ | .replaceStopLimitOrder _ id _ _ _ => s.stopSymbol id

/-- The account that submits an order. -/
def submitter : Op → Option AccountId
  | .placeLimitOrder a .. | .placeHiddenOrder a .. | .placeIcebergOrder a ..
  | .placeMarketOrder a .. | .placeStopOrder a .. | .placeStopLimitOrder a .. => some a
  | _ => none

/-- The account that replaces an order. -/
def replacer : Op → Option AccountId
  | .replaceOrder a .. => some a
  | _ => none

/-- The settings and market controls that touch no account. -/
def isSetting : Op → Prop
  | .setFeeModel .. | .setAccountRiskConfig .. | .haltSymbol .. | .resumeSymbol ..
  | .setPriceBands .. | .clearPriceBands .. | .setTradingPhase .. => True
  | _ => False

/-- The entries an operation makes, its own and those of stops. -/
def entries (op : Op) (s : MatchingEngine) : List Entry :=
  let id := s.nextOrderId
  let s' : MatchingEngine := { s with nextOrderId := s.nextOrderId + 1 }
  match op with
  | .placeLimitOrder accountId symbol side price qty tif =>
    s'.placeEntries (limitTaker accountId symbol id side price qty tif)
  | .placeHiddenOrder accountId symbol side price qty =>
    s'.placeEntries { accountId, symbol, id, side, price, remaining := qty, tif := .gtc,
                      visibility := .hidden, displayQty := 0 }
  | .placeIcebergOrder accountId symbol side price totalQty displayQty =>
    s'.placeEntries { accountId, symbol, id, side, price, remaining := totalQty, tif := .gtc,
                      visibility := .iceberg, displayQty }
  | .placeMarketOrder accountId symbol side qty =>
    s'.marketEntries accountId symbol id side qty ++
      followEntries symbol (placeMarketOrderWithAccountAndId accountId symbol id side qty) s'
  | .placeStopOrder accountId symbol side stopPrice qty =>
    followEntries symbol
      (placeStopOrderWithAccountAndId accountId symbol id side stopPrice qty none) s'
  | .placeStopLimitOrder accountId symbol side stopPrice limitPrice qty =>
    followEntries symbol
      (placeStopOrderWithAccountAndId accountId symbol id side stopPrice qty limitPrice) s'
  | .replaceOrder accountId id newPrice newQty => s.replaceEntries accountId id newPrice newQty
  | .replaceStopOrder accountId id newStopPrice newQty =>
    s.replaceStopEntries accountId id newStopPrice none newQty
  | .replaceStopLimitOrder accountId id newStopPrice newLimitPrice newQty =>
    s.replaceStopEntries accountId id newStopPrice (some newLimitPrice) newQty
  | _ => []

/-- The trades of an operation that is an uncross. -/
def auctionSteps (op : Op) (s : MatchingEngine) : List (OrderBook × ℤ × ℤ) :=
  match op with
  | .uncross symbol => s.uncrossSteps symbol
  | _ => []

end Op
end Tes
