import Tes.Engine.Accounts

/-! What trades and resting orders do to accounts and reserves: the steps that the match
loop, the auction and both ways of resting an order share. -/
namespace Tes
open Rounding

namespace MatchingEngine

def ownerAccountId (s : MatchingEngine) (id : OrderId) : AccountId :=
  (s.orderOwnershipById.lookup id).elim defaultAccountId OrderOwnership.accountId

/-- The quantity the owner's record shows, or `qty` without a record. -/
def ownedQty (s : MatchingEngine) (id : OrderId) (qty : ℤ) : ℤ :=
  (s.orderOwnershipById.lookup id).elim qty OrderOwnership.qty

/-- Settle a trade with the taker first. The two accounts may be the same. -/
def exchange (s : MatchingEngine) (symbol : Symbol) (takerSide : Side) (price qty : ℤ)
    (takerAccountId makerAccountId : AccountId) : MatchingEngine :=
  (s.updateAccount takerAccountId fun account =>
    account.settle symbol takerSide price qty (s.feeForNotional (price * qty) false)).updateAccount
      makerAccountId fun account =>
        account.settle symbol takerSide.opposite price qty (s.feeForNotional (price * qty) true)

def setMark (s : MatchingEngine) (symbol : Symbol) (price : ℤ) : MatchingEngine :=
  { s with latestMarkBySymbol := s.latestMarkBySymbol.insert symbol (price : ℚ) }

/-- A per-order reserve after a release: the entry goes when nothing is left. -/
def reduceEntry (m : Finmap fun _ : OrderId => ℤ) (id : OrderId) (left : ℤ) :
    Finmap fun _ : OrderId => ℤ :=
  if left = 0 then m.erase id else m.insert id left

/-- The share of a reserve that a fill frees, never more than the reserve. -/
def boundedRelease (reserved qty qtyBefore : ℤ) : ℤ :=
  min reserved (if qtyBefore ≤ 0 then reserved else ceilShare reserved qty qtyBefore)

def releaseQty (s : MatchingEngine) (accountId : AccountId) (symbol : Symbol) (orderId : OrderId)
    (qty : ℤ) : MatchingEngine :=
  match s.reservedQtyByOrderId.lookup orderId with
  | none => s
  | some reserved =>
    let release := min reserved qty
    { s.updateAccount accountId fun account =>
        { account with
          reservedQtyBySymbol := account.reservedQtyBySymbol.insert symbol
            (account.reservedQty symbol - release) } with
      reservedQtyByOrderId := reduceEntry s.reservedQtyByOrderId orderId (reserved - release) }

def releaseCash (s : MatchingEngine) (accountId : AccountId) (orderId : OrderId)
    (qty qtyBefore : ℤ) : MatchingEngine :=
  match s.reservedCashByOrderId.lookup orderId with
  | none => s
  | some reserved =>
    let release := boundedRelease reserved qty qtyBefore
    { s.updateAccount accountId fun account =>
        { account with reservedCash := account.reservedCash - release } with
      reservedCashByOrderId := reduceEntry s.reservedCashByOrderId orderId (reserved - release) }

def releaseShortMargin (s : MatchingEngine) (accountId : AccountId) (orderId : OrderId)
    (qty qtyBefore : ℤ) : MatchingEngine :=
  match s.reservedShortMarginByOrderId.lookup orderId with
  | none => s
  | some reserved =>
    let release := boundedRelease reserved qty qtyBefore
    { s.updateAccount accountId fun account =>
        { account with reservedShortMargin := account.reservedShortMargin - release } with
      reservedShortMarginByOrderId :=
        reduceEntry s.reservedShortMarginByOrderId orderId (reserved - release) }

/-- The ledger entry of a fee, if there is one. -/
def journalFee (s : MatchingEngine) (accountId : AccountId) (symbol : Symbol) (fee : ℤ)
    (orderId tradeId : OrderId) : MatchingEngine :=
  if fee ≠ 0 then
    s.appendLedgerEntry
      { accountId, symbol, reason := "fee", cashDelta := -fee, relatedOrderId := some orderId,
        relatedTradeId := some tradeId, feeDelta := fee }
  else s

/-! Resting an order. -/

/-- What the book is handed. -/
def bookAdd (book : OrderBook) (id : OrderId) (side : Side) (price qty : ℤ)
    (visibility : OrderVisibility) (displayQty : ℤ) : List Event × OrderBook :=
  match visibility with
  | .hidden => book.addHiddenOrder { id, side, price, qty }
  | .iceberg =>
    book.addIcebergOrder
      { id, side, price, qty, visibility := .iceberg, totalQty := qty, displayQty }
  | .displayed => book.addLimitOrder { id, side, price, qty }

/-- Reserve cash for a resting buy order. -/
def reserveBuy (s : MatchingEngine) (accountId : AccountId) (symbol : Symbol) (id : OrderId)
    (price qty : ℤ) : MatchingEngine :=
  let reserve := s.buyReserve accountId symbol price qty (s.feeModel.limitFee (price * qty))
  { s.updateAccount accountId fun account =>
      { account with reservedCash := account.reservedCash + reserve } with
    reservedCashByOrderId := s.reservedCashByOrderId.insert id reserve }.appendLedgerEntry
      { accountId, symbol, reason := "order_accepted_reserve", reservedCashDelta := reserve,
        relatedOrderId := some id }

/-- Reserve the long position a resting sell order can use. -/
def reserveLong (s : MatchingEngine) (accountId : AccountId) (symbol : Symbol) (id : OrderId)
    (longReserve : ℤ) : MatchingEngine :=
  if 0 < longReserve then
    { s.updateAccount accountId fun account =>
        { account with
          reservedQtyBySymbol := account.reservedQtyBySymbol.insert symbol
            (account.reservedQty symbol + longReserve) } with
      reservedQtyByOrderId := s.reservedQtyByOrderId.insert id longReserve }
  else s

/-- Reserve the margin of the part of a resting sell order that is short. -/
def reserveShort (s : MatchingEngine) (accountId : AccountId) (id : OrderId)
    (shortReserve : ℤ) : MatchingEngine :=
  if 0 < shortReserve then
    { s.updateAccount accountId fun account =>
        { account with reservedShortMargin := account.reservedShortMargin + shortReserve } with
      reservedShortMarginByOrderId := s.reservedShortMarginByOrderId.insert id shortReserve }
  else s

/-- The part of a sell order that the account's free position covers. -/
def longReserveOf (s : MatchingEngine) (accountId : AccountId) (symbol : Symbol) (qty : ℤ) : ℤ :=
  min qty (max 0 ((s.account accountId).position symbol - (s.account accountId).reservedQty symbol))

def reserveSell (s : MatchingEngine) (accountId : AccountId) (symbol : Symbol) (id : OrderId)
    (price qty : ℤ) : MatchingEngine :=
  let s := s.updateAccount accountId fun account => account.openSymbol symbol
  let longReserve := s.longReserveOf accountId symbol qty
  let shortReserve := s.shortMarginReserve accountId symbol price (qty - longReserve)
  ((s.reserveLong accountId symbol id longReserve).reserveShort accountId id
    shortReserve).appendLedgerEntry
      { accountId, symbol, reason := "order_accepted_reserve", reservedCashDelta := shortReserve,
        reservedPositionDelta := longReserve, relatedOrderId := some id }

/-- Hand an order to the book, and record owner and reserves whatever the book does. -/
def restOrder (s : MatchingEngine) (accountId : AccountId) (symbol : Symbol) (id : OrderId)
    (side : Side) (price qty : ℤ) (visibility : OrderVisibility) (displayQty : ℤ) :
    MatchingEngine :=
  let added := (bookAdd (s.bookFor symbol) id side price qty visibility displayQty).2
  let owned : MatchingEngine :=
    { s.setBook symbol added with
      orderOwnershipById := s.orderOwnershipById.insert id
        { accountId, symbol, side, price, qty, visibility, displayQty } }
  match side with
  | .bid => owned.reserveBuy accountId symbol id price qty
  | .ask => owned.reserveSell accountId symbol id price qty

/-- The events of the book taking the order, under the engine's symbol. -/
def restEvents (s : MatchingEngine) (symbol : Symbol) (id : OrderId) (side : Side)
    (price qty : ℤ) (visibility : OrderVisibility) (displayQty : ℤ) : List Event :=
  (bookAdd (s.bookFor symbol) id side price qty visibility displayQty).1.map
    (Event.tagAccepted symbol)

end MatchingEngine
end Tes
