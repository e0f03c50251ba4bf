import Mathlib.Data.List.Sort
import Mathlib.Data.List.Destutter
import Tes.Engine.Settlement

/-! Call auctions: the indicative price, resting during an auction, and the uncross. -/
namespace Tes
open Rounding

structure AuctionIndicative where
  price : Option ℤ := none
  qty : ℤ := 0
  imbalance : ℤ := 0
  deriving DecidableEq, Repr

namespace AuctionIndicative

/-- The best candidate so far, with its price. -/
structure Best where
  price : ℤ
  qty : ℤ
  imbalance : ℤ
  deriving DecidableEq, Repr

/-- Displayed bids at the price or better. -/
def bidQtyAt (depth : Depth) (price : ℤ) : ℤ :=
  ((depth.bids.takeWhile fun l => price ≤ l.1).map Prod.snd).sum

/-- Displayed asks at the price or better. -/
def askQtyAt (depth : Depth) (price : ℤ) : ℤ :=
  ((depth.asks.takeWhile fun l => l.1 ≤ price).map Prod.snd).sum

/-- Whether a candidate of these figures replaces the best one so far. -/
def better (reference : Option ℤ) (candidate matched imbalance : ℤ) (best : Best) : Prop :=
  best.qty < matched ∨
  matched = best.qty ∧
    (|imbalance| < |best.imbalance| ∨
     |imbalance| = |best.imbalance| ∧
       ((∃ r ∈ reference, |candidate - r| < |best.price - r|) ∨
        (∀ r ∈ reference, |candidate - r| = |best.price - r|) ∧ candidate < best.price))

instance (reference : Option ℤ) (candidate matched imbalance : ℤ) (best : Best) :
    Decidable (better reference candidate matched imbalance best) :=
  inferInstanceAs (Decidable (_ ∨ _ ∧ (_ ∨ _ ∧ ((∃ r ∈ reference, _) ∨ _ ∧ _))))

def consider (depth : Depth) (reference : Option ℤ) (best : Option Best) (candidate : ℤ) :
    Option Best :=
  let bidQty := bidQtyAt depth candidate
  let askQty := askQtyAt depth candidate
  let matched := min bidQty askQty
  let imbalance := bidQty - askQty
  if matched ≤ 0 then best
  else match best with
    | none => some ⟨candidate, matched, imbalance⟩
    | some b =>
      if better reference candidate matched imbalance b then some ⟨candidate, matched, imbalance⟩
      else some b

def candidates (depth : Depth) : List ℤ :=
  (((depth.bids.map Prod.fst) ++ depth.asks.map Prod.fst).insertionSort (· ≤ ·)).destutter (· ≠ ·)

def ofDepth (depth : Depth) (reference : Option ℤ) : AuctionIndicative :=
  match (candidates depth).foldl (consider depth reference) none with
  | none => {}
  | some best => ⟨some best.price, best.qty, best.imbalance⟩

end AuctionIndicative

namespace MatchingEngine

def computeAuctionIndicative (s : MatchingEngine) (symbol : Symbol) : AuctionIndicative :=
  AuctionIndicative.ofDepth ((s.bookFor symbol).depth none)
    ((s.latestMarkBySymbol.lookup symbol).map llround)

def indicativePriceEvent (s : MatchingEngine) (symbol : Symbol) : Event :=
  let indicative := s.computeAuctionIndicative symbol
  .indicativePriceUpdated symbol indicative.price indicative.qty indicative.imbalance

def restVisibleOrder (accountId : AccountId) (symbol : Symbol) (id : OrderId) (side : Side)
    (price qty : ℤ) (visibility : OrderVisibility) (displayQty : ℤ) : Engine (List Event) := do
  let s ← get
  let rested := s.restOrder accountId symbol id side price qty visibility displayQty
  set rested
  let events := s.restEvents symbol id side price qty visibility displayQty
  if rested.inAuction symbol then pure (events ++ [rested.indicativePriceEvent symbol])
  else pure events

/-- The accounts, reserves, mark and ledger after an auction trade. -/
def settleAuction (s : MatchingEngine) (symbol : Symbol) (bidId askId : OrderId)
    (price qty : ℤ) : MatchingEngine :=
  let bidAccountId := s.ownerAccountId bidId
  let askAccountId := s.ownerAccountId askId
  let notional := price * qty
  let paid := s.exchange symbol .bid price qty bidAccountId askAccountId
  let released := ((paid.releaseCash bidAccountId bidId qty (s.ownedQty bidId qty)).releaseQty
    askAccountId symbol askId qty).releaseShortMargin askAccountId askId qty (s.ownedQty askId qty)
  let marked := released.setMark symbol price
  let journaled := (marked.appendLedgerEntry
    { accountId := bidAccountId, symbol, reason := "auction_trade_settlement",
      cashDelta := -notional, positionDelta := qty, relatedOrderId := some bidId,
      relatedTradeId := some askId }).appendLedgerEntry
    { accountId := askAccountId, symbol, reason := "auction_trade_settlement",
      cashDelta := notional, positionDelta := -qty, relatedOrderId := some askId,
      relatedTradeId := some bidId }
  (journaled.journalFee bidAccountId symbol (s.feeForNotional notional false) bidId
    askId).journalFee askAccountId symbol (s.feeForNotional notional true) askId bidId

/-- The owner's record shrinks by what was settled; it goes when nothing is left. -/
def reduceOwner (s : MatchingEngine) (id : OrderId) (qty : ℤ) : MatchingEngine :=
  match s.orderOwnershipById.lookup id with
  | none => s
  | some owner =>
    { s with
      orderOwnershipById :=
        if owner.qty - qty = 0 then s.orderOwnershipById.erase id
        else s.orderOwnershipById.insert id { owner with qty := owner.qty - qty } }

def auctionTradeEvents (symbol : Symbol) (bidId askId : OrderId) (price qty : ℤ) : List Event :=
  [.tradeExecuted bidId askId .bid price qty symbol, .orderFilled bidId qty symbol,
    .orderFilled askId qty symbol]

def settleAuctionTrade (symbol : Symbol) (bidId askId : OrderId) (price qty : ℤ) :
    Engine (List Event) := do
  let s ← get
  let settled := s.settleAuction symbol bidId askId price qty
  set ((settled.reduceOwner bidId qty).reduceOwner askId qty)
  assertInvariants symbol (s.ownerAccountId bidId) (s.ownerAccountId askId)
  pure (auctionTradeEvents symbol bidId askId price qty)

/-- The quantity of the next auction trade: what is left to execute, bounded by the orders
at the front of the best displayed levels. -/
def nextAuctionQty (book : OrderBook) (price remaining : ℤ) : Option ℤ := do
  let bestBid ← book.bestBid
  let bestAsk ← book.bestAsk
  if remaining ≤ 0 ∨ bestBid < price ∨ price < bestAsk then none
  else
    let bidOrder ← book.frontOfLevel .bid bestBid
    let askOrder ← book.frontOfLevel .ask bestAsk
    some (min remaining (min bidOrder.qty askOrder.qty))

/-- Take the quantity from one side, from the best level with any liquidity. -/
def auctionFill (book : OrderBook) (side : Side) (price qty : ℤ) : Option FillResult × OrderBook :=
  match book.fillBestAtOrBetter side price qty with
  | some (fill, book) => (some fill, book)
  | none => (none, book)

/-- The auction loop; it returns what is left to execute. Each trade takes at least one
unit, so the indicative quantity is fuel enough. -/
def auctionLoop (symbol : Symbol) (price : ℤ) : ℕ → ℤ → Engine (ℤ × List Event)
  | 0, remaining => pure (remaining, [])
  | fuel + 1, remaining => do
    let s ← get
    match nextAuctionQty (s.bookFor symbol) price remaining with
    | none => pure (remaining, [])
    | some traded => do
      let (bid, book) := auctionFill (s.bookFor symbol) .bid price traded
      let (ask, book) := auctionFill book .ask price traded
      set (s.setBook symbol book)
      match bid, ask with
      | some bid, some ask => do
        let trade ← settleAuctionTrade symbol bid.makerId ask.makerId price traded
        let (remaining, events) ← auctionLoop symbol price fuel (remaining - traded)
        pure (remaining, trade ++ events)
      | _, _ => pure (remaining, [])

/-- Leave the auction phase, if the symbol is in one. -/
def endAuction (symbol : Symbol) : Engine (List Event) := do
  let s ← get
  if s.inAuction symbol then
    set { s with tradingPhasesBySymbol := s.tradingPhasesBySymbol.insert symbol .continuous }
    pure [.auctionEnded symbol .continuous]
  else pure []

/-- The events of a trade or an auction outside the price band. -/
def circuitBreakerEvents (symbol : Symbol) (price : ℤ) (reason : String) : List Event :=
  [.circuitBreakerTriggered symbol price reason, .symbolHalted symbol reason]

def uncross (symbol : Symbol) : Engine (List Event) := do
  let s ← get
  let indicative := s.computeAuctionIndicative symbol
  match indicative.price with
  | none => pure [.auctionUncross symbol 0 0 0]
  | some price =>
    if indicative.qty ≤ 0 then pure [.auctionUncross symbol 0 0 0]
    else if ¬ s.priceInBand symbol price then do
      set (s.withHalt symbol "AuctionPriceOutOfBand")
      pure (.orderRejected .bid price indicative.qty .auctionPriceOutOfBand symbol ::
        circuitBreakerEvents symbol price "AuctionPriceOutOfBand")
    else do
      let before := s.bookFor symbol
      let (remaining, trades) ← auctionLoop symbol price indicative.qty.toNat indicative.qty
      let s ← get
      let top := s.maybeEmitTopOfBookChange symbol before.bestBid before.bestAsk
      let ended ← endAuction symbol
      let events := .auctionUncross symbol price (indicative.qty - remaining)
        (s.computeAuctionIndicative symbol).imbalance :: trades ++ top ++ ended
      modify fun s => s.trackEvents events
      pure events

end MatchingEngine
end Tes
