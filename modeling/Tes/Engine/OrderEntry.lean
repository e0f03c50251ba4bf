import Tes.Engine.Accounts
import Tes.Engine.Auction

/-! Order entry: validation, the match loop, and what happens to the remainder. -/
namespace Tes

/-- An order on its way through the match loop. -/
structure Taker where
  accountId : AccountId
  symbol : Symbol
  id : OrderId
  side : Side
  price : ℤ
  remaining : ℤ
  tif : TimeInForce
  visibility : OrderVisibility
  displayQty : ℤ
  deriving DecidableEq, Repr

namespace MatchingEngine

/-- The fill the book gives next, or none when the match loop is over. -/
def nextFill (s : MatchingEngine) (t : Taker) : Option (FillResult × OrderBook) :=
  if 0 < t.remaining then
    match (s.bookFor t.symbol).bestMatchPrice t.side t.price with
    | none => none
    | some restingPrice =>
      if crosses t.side t.price restingPrice then
        (s.bookFor t.symbol).fillBest t.side.opposite t.remaining
      else none
  else none

/-- The accounts, reserves and mark after a fill against the book `book` leaves behind. -/
def settleFill (s : MatchingEngine) (t : Taker) (fill : FillResult) (book : OrderBook) :
    MatchingEngine :=
  let makerAccountId := s.ownerAccountId fill.makerId
  let makerQtyBefore := s.ownedQty fill.makerId fill.qty
  let paid := (s.setBook t.symbol book).exchange t.symbol t.side fill.price fill.qty t.accountId
    makerAccountId
  let released := match t.side with
    | .bid =>
      (paid.releaseQty makerAccountId t.symbol fill.makerId fill.qty).releaseShortMargin
        makerAccountId fill.makerId fill.qty makerQtyBefore
    | .ask => paid.releaseCash makerAccountId fill.makerId fill.qty makerQtyBefore
  released.setMark t.symbol fill.price

/-- The ledger entries of a fill. -/
def journalFill (s : MatchingEngine) (t : Taker) (fill : FillResult) (makerAccountId : AccountId) :
    MatchingEngine :=
  let notional := fill.price * fill.qty
  let takerFee := s.feeForNotional notional false
  let makerFee := s.feeForNotional notional true
  let bought := t.side = .bid
  let s := s.appendLedgerEntry
    { accountId := t.accountId, symbol := t.symbol, reason := "trade_settlement",
      cashDelta := if bought then -notional else notional,
      positionDelta := if bought then fill.qty else -fill.qty,
      relatedOrderId := some t.id, relatedTradeId := some fill.makerId }
  let s := s.appendLedgerEntry
    { accountId := makerAccountId, symbol := t.symbol, reason := "trade_settlement",
      cashDelta := if bought then notional else -notional,
      positionDelta := if bought then -fill.qty else fill.qty,
      reservedCashDelta := if bought then 0 else -notional,
      reservedPositionDelta := if bought then -fill.qty else 0,
      relatedOrderId := some fill.makerId, relatedTradeId := some t.id }
  let s := s.journalFee t.accountId t.symbol takerFee t.id fill.makerId
  s.journalFee makerAccountId t.symbol makerFee fill.makerId t.id

/-- The maker's ownership record follows what is left of its order. -/
def updateOwner (s : MatchingEngine) (fill : FillResult) : MatchingEngine :=
  match s.orderOwnershipById.lookup fill.makerId with
  | none => s
  | some owner =>
    { s with
      orderOwnershipById :=
        if fill.makerFilled then s.orderOwnershipById.erase fill.makerId
        else s.orderOwnershipById.insert fill.makerId { owner with qty := fill.makerRemainingQty } }

/-- The events that follow a trade inside the price band. -/
def fillEvents (t : Taker) (fill : FillResult) : List Event :=
  (match fill.replenished with
    | some clip => [.icebergReplenished { clip with symbol := t.symbol }]
    | none => []) ++
  if 0 < t.remaining - fill.qty then
    [.orderPartiallyFilled t.id fill.qty (t.remaining - fill.qty) t.symbol]
  else [.orderFilled t.id fill.qty t.symbol]

def tradeEvent (t : Taker) (fill : FillResult) : Event :=
  .tradeExecuted t.id fill.makerId t.side fill.price fill.qty t.symbol

/-- The match loop. Each fill takes at least one unit, so the quantity of the order is
fuel enough. -/
def matchLoop : ℕ → Taker → Engine (Taker × List Event)
  | 0, t => pure (t, [])
  | fuel + 1, t => do
    let s ← get
    match s.nextFill t with
    | none => pure (t, [])
    | some (fill, book) => do
      let makerAccountId := s.ownerAccountId fill.makerId
      let before := s.bookFor t.symbol
      let settled := s.settleFill t fill book
      let taker := { t with remaining := t.remaining - fill.qty }
      if settled.priceInBand t.symbol fill.price then
        set (settled.journalFill t fill makerAccountId)
        assertInvariants t.symbol t.accountId makerAccountId
        modify fun s => s.updateOwner fill
        let top := book.maybeEmitTopOfBookChange t.symbol before.bestBid before.bestAsk
        let (taker, events) ← matchLoop fuel taker
        pure (taker, tradeEvent t fill :: fillEvents t fill ++ top ++ events)
      else
        set (settled.withHalt t.symbol "TradePriceBandBreach")
        pure (taker,
          tradeEvent t fill :: circuitBreakerEvents t.symbol fill.price "TradePriceBandBreach")

/-- Rest the remainder or let it expire. -/
def finishEntry (t : Taker) : Engine (List Event) := do
  if 0 < t.remaining then
    if t.tif = .ioc then
      modify fun s => s.appendLedgerEntry
        { accountId := t.accountId, symbol := t.symbol, reason := "ioc_fok_expiration_release",
          relatedOrderId := some t.id }
      pure [.orderExpired t.id t.symbol]
    else
      let s ← get
      set (s.restOrder t.accountId t.symbol t.id t.side t.price t.remaining t.visibility
        t.displayQty)
      pure (s.restEvents t.symbol t.id t.side t.price t.remaining t.visibility t.displayQty)
  else pure []

/-- The account an order needs, with the account-0 top-up. -/
def touchAccount (s : MatchingEngine) (accountId : AccountId) (symbol : Symbol) : MatchingEngine :=
  s.updateAccount accountId fun account =>
    if accountId = defaultAccountId then
      { account with
        cashBalance := max account.cashBalance defaultLegacyCash
        positionQtyBySymbol := account.positionQtyBySymbol.insert symbol
          (max (account.position symbol) defaultLegacyPosition) }
    else account

/-- What order entry checks before it looks at any account. -/
def validateEntry (s : MatchingEngine) (symbol : Symbol) (price qty : ℤ)
    (visibility : OrderVisibility) (displayQty : ℤ) : Option RejectReason :=
  if ¬ isValidPrice price then some .invalidPrice
  else if ¬ isValidQty qty then some .invalidQuantity
  else if visibility = .iceberg ∧ (¬ isValidQty displayQty ∨ qty < displayQty) then
    some .invalidQuantity
  else s.validateMarketControl symbol price

def placeVisibleOrderWithAccountAndId (accountId : AccountId) (symbol : Symbol)
    (takerId : OrderId) (side : Side) (price qty : ℤ) (tif : TimeInForce)
    (visibility : OrderVisibility) (displayQty : ℤ) : Engine (List Event) := do
  let s ← get
  match s.validateEntry symbol price qty visibility displayQty with
  | some failure => pure [.orderRejected side price qty failure symbol]
  | none => do
    let s := s.touchAccount accountId symbol
    match s.validateOrderRisk accountId symbol side price qty none with
    | some failure => do
      set (s.appendLedgerEntry
        { accountId, symbol, reason := "order_rejected_risk_failure",
          relatedOrderId := some takerId })
      pure [.orderRejected side price qty failure symbol]
    | none => do
      set s
      if s.inAuction symbol then
        restVisibleOrder accountId symbol takerId side price qty visibility displayQty
      else if tif = .fok ∧ (s.bookFor symbol).executableQty side price < qty then
        pure [.orderExpired takerId symbol]
      else do
        let (taker, events) ← matchLoop qty.toNat
          { accountId, symbol, id := takerId, side, price, remaining := qty, tif, visibility,
            displayQty }
        let rested ← finishEntry taker
        pure (events ++ rested)

def placeLimitOrderWithAccountAndId (accountId : AccountId) (symbol : Symbol) (takerId : OrderId)
    (side : Side) (price qty : ℤ) (tif : TimeInForce) : Engine (List Event) :=
  placeVisibleOrderWithAccountAndId accountId symbol takerId side price qty tif .displayed 0

/-- The worst displayed price needed to cover `qty`, or the worst there is. -/
def marketLimit : List (ℤ × ℤ) → ℤ → ℤ → ℤ
  | [], _, limit => limit
  | (price, qty) :: rest, remaining, _ =>
    if remaining - min remaining qty = 0 then price
    else marketLimit rest (remaining - min remaining qty) price

def placeMarketOrderWithAccountAndId (accountId : AccountId) (symbol : Symbol) (takerId : OrderId)
    (side : Side) (qty : ℤ) : Engine (List Event) := do
  let s ← get
  let book := s.bookFor symbol
  let depth := book.depth none
  let (best, opposite) := match side with
    | .bid => (book.bestAsk, depth.asks)
    | .ask => (book.bestBid, depth.bids)
  if ¬ isValidQty qty then pure [.orderRejected side 0 qty .invalidQuantity symbol]
  else if s.isHalted symbol then pure [.orderRejected side 0 qty .symbolHalted symbol]
  else if best = none then pure [.orderRejected side 0 qty .noLiquidity symbol]
  else
    let limit := marketLimit opposite qty 0
    if ¬ s.priceInBand symbol limit then
      pure [.orderRejected side limit qty .priceBandViolation symbol]
    else placeLimitOrderWithAccountAndId accountId symbol takerId side limit qty .ioc

end MatchingEngine
end Tes
