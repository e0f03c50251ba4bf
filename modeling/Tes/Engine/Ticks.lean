import Tes.Library.Transition
import Tes.Book.Liquidity
import Tes.Engine.Frames

/-! The ticks of the engine: what an operation does between two moments at which the state
is worth looking at, each with the events it emits. -/
namespace Tes

/-- Conditions on the accounts, order entries and auction trades of a run: which accounts
may submit orders and which may own them. -/
structure Guard where
  account : AccountId → Prop := fun _ => True
  owner : AccountId → Prop := fun _ => True
  owns : ∀ a, account a → owner a := by intros; trivial
  entry : MatchingEngine → Taker → Prop := fun _ _ => True
  auction : OrderBook → ℤ → ℤ → Prop := fun _ _ _ => True

/-- Events that say nothing about resting orders. -/
def Event.inert : Event → Prop
  | .orderAccepted .. | .hiddenOrderAccepted .. | .icebergOrderAccepted ..
  | .tradeExecuted .. | .orderCanceled .. => False
  | _ => True

/-- The order on its way into the engine, if there is one. -/
inductive Flight
  | idle
  | matching (t : Taker)
  | matched (t : Taker)

structure Config where
  engine : MatchingEngine
  flight : Flight

namespace MatchingEngine

def Rests (s : MatchingEngine) (symbol : Symbol) (id : OrderId) : Prop :=
  (s.bookFor symbol).findOrder id ≠ none

/-- An id that an order of the symbol may take. -/
structure Free (s : MatchingEngine) (symbol : Symbol) (id : OrderId) : Prop where
  lt : id < s.nextOrderId
  stop : s.stopOrdersById.lookup id = none
  rests : ∀ symbol, ¬ s.Rests symbol id
  owner : ∀ owner, s.orderOwnershipById.lookup id = some owner → owner.symbol = symbol

/-- A free id with nothing reserved, unless the account has a record under it. -/
structure Claimable (s : MatchingEngine) (a : AccountId) (symbol : Symbol) (id : OrderId) : Prop
    extends Free s symbol id where
  unreserved : s.orderOwnershipById.lookup id = none → s.Unreserved id
  account : ∀ owner, s.orderOwnershipById.lookup id = some owner → owner.accountId = a

/-- The checks an accepted order has passed. -/
structure Admits (s : MatchingEngine) (t : Taker) : Prop where
  valid : s.validateEntry t.symbol t.price t.remaining t.visibility t.displayQty = none
  risk : s.validateOrderRisk t.accountId t.symbol t.side t.price t.remaining none = none
  free : s.Claimable t.accountId t.symbol t.id

/-- What `assertInvariants` checks. -/
structure InvariantsHold (s : MatchingEngine) (symbol : Symbol) (a b : AccountId) : Prop where
  present : s.accounts.lookup a ≠ none ∧ s.accounts.lookup b ≠ none
  cash : 0 ≤ (s.account a).reservedCash ∧ 0 ≤ (s.account b).reservedCash
  shortMargin : 0 ≤ (s.account a).reservedShortMargin ∧ 0 ≤ (s.account b).reservedShortMargin
  qty : 0 ≤ (s.account a).reservedQty symbol ∧ 0 ≤ (s.account b).reservedQty symbol

def allocated (s : MatchingEngine) : MatchingEngine := { s with nextOrderId := s.nextOrderId + 1 }

def withStops (s : MatchingEngine) (stops : Finmap fun _ : OrderId => StopOrderState)
    (pending : Finmap fun _ : Symbol => List OrderId) : MatchingEngine :=
  { s with stopOrdersById := stops, pendingStopIdsBySymbol := pending }

def auctionEnded (s : MatchingEngine) (symbol : Symbol) : MatchingEngine :=
  { s with tradingPhasesBySymbol := s.tradingPhasesBySymbol.insert symbol .continuous }

/-- The state after a fill inside the price band, before the maker's record follows it. -/
def journaled (s : MatchingEngine) (t : Taker) (fill : FillResult) (book : OrderBook) :
    MatchingEngine :=
  (s.settleFill t fill book).journalFill t fill (s.ownerAccountId fill.makerId)

/-- The state after a fill inside the price band. -/
def filled (s : MatchingEngine) (t : Taker) (fill : FillResult) (book : OrderBook) :
    MatchingEngine :=
  (s.journaled t fill book).updateOwner fill

/-- The state after a fill outside the price band. -/
def breached (s : MatchingEngine) (t : Taker) (fill : FillResult) (book : OrderBook) :
    MatchingEngine :=
  (s.settleFill t fill book).withHalt t.symbol "TradePriceBandBreach"

/-- The state after an auction trade. -/
def auctionTraded (s : MatchingEngine) (symbol : Symbol) (price traded : ℤ) (bidId askId : OrderId)
    (book : OrderBook) : MatchingEngine :=
  (((s.setBook symbol book).settleAuction symbol bidId askId price traded).reduceOwner bidId
    traded).reduceOwner askId traded

end MatchingEngine

def Taker.after (t : Taker) (fill : FillResult) : Taker :=
  { t with remaining := t.remaining - fill.qty }

def Taker.rested (t : Taker) (s : MatchingEngine) : MatchingEngine :=
  s.restOrder t.accountId t.symbol t.id t.side t.price t.remaining t.visibility t.displayQty

def Taker.restedEvents (t : Taker) (s : MatchingEngine) : List Event :=
  s.restEvents t.symbol t.id t.side t.price t.remaining t.visibility t.displayQty

open MatchingEngine Flight

/-- One tick. -/
inductive Tick (G : Guard) : Config → List Event → Config → Prop
  /-- The journal is written. -/
  | record {s s' : MatchingEngine} {flight : Flight} {events : List Event} :
      s'.unjournaled = s.unjournaled → (∀ e ∈ events, e.inert) →
      Tick G ⟨s, flight⟩ events ⟨s', flight⟩
  /-- An order id is taken. -/
  | allocate (s : MatchingEngine) :
      Tick G ⟨s, idle⟩ [] ⟨s.allocated, idle⟩
  | touch (s : MatchingEngine) {a : AccountId} (symbol : Symbol) :
      G.account a → Tick G ⟨s, idle⟩ [] ⟨s.touchAccount a symbol, idle⟩
  /-- Stop orders come, go or change; a stop order's id is new or a stop order's. -/
  | stops {s : MatchingEngine} {m : Finmap fun _ : OrderId => StopOrderState}
      {pending : Finmap fun _ : Symbol => List OrderId} {events : List Event} :
      (∀ e ∈ events, e.inert ∨ ∃ id symbol,
        s.stopOrdersById.lookup id ≠ none ∧ e = .orderCanceled id symbol) →
      (∀ id stop, m.lookup id = some stop → G.account stop.accountId ∧
        (s.stopOrdersById.lookup id ≠ none ∨
          id < s.nextOrderId ∧ s.orderOwnershipById.lookup id = none ∧
            ∀ symbol, ¬ s.Rests symbol id)) →
      (∀ symbol id, id ∈ pending.valueD symbol [] →
        ∃ stop, m.lookup id = some stop ∧ stop.symbol = symbol) →
      Tick G ⟨s, idle⟩ events ⟨s.withStops m pending, idle⟩
  /-- An accepted order starts to match. -/
  | enter {s : MatchingEngine} {t : Taker} :
      s.Admits t → G.account t.accountId → G.entry s t → ¬ s.inAuction t.symbol →
      ¬ (t.tif = .fok ∧ (s.bookFor t.symbol).executableQty t.side t.price < t.remaining) →
      Tick G ⟨s, idle⟩ [] ⟨s, matching t⟩
  | fill {s : MatchingEngine} {t : Taker} {fill : FillResult} {book : OrderBook}
      {events : List Event} :
      s.nextFill t = some (fill, book) → s.priceInBand t.symbol fill.price →
      (s.journaled t fill book).InvariantsHold t.symbol t.accountId
        (s.ownerAccountId fill.makerId) → (∀ e ∈ events, e.inert) →
      Tick G ⟨s, matching t⟩ (tradeEvent t fill :: events)
        ⟨s.filled t fill book, matching (t.after fill)⟩
  /-- A fill outside the price band stops the matching and halts the symbol. -/
  | breach {s : MatchingEngine} {t : Taker} {fill : FillResult} {book : OrderBook}
      {events : List Event} :
      s.nextFill t = some (fill, book) → ¬ s.priceInBand t.symbol fill.price →
      (∀ e ∈ events, e.inert) →
      Tick G ⟨s, matching t⟩ (tradeEvent t fill :: events)
        ⟨s.breached t fill book, matched (t.after fill)⟩
  | finish {s : MatchingEngine} {t : Taker} :
      s.nextFill t = none → Tick G ⟨s, matching t⟩ [] ⟨s, matched t⟩
  /-- The remainder rests. -/
  | rest {s : MatchingEngine} {t : Taker} :
      0 < t.remaining → t.tif ≠ .ioc →
      Tick G ⟨s, matched t⟩ (t.restedEvents s) ⟨t.rested s, idle⟩
  /-- Nothing is left, or what is left expires. -/
  | drop {s : MatchingEngine} {t : Taker} :
      t.remaining ≤ 0 ∨ t.tif = .ioc → Tick G ⟨s, matched t⟩ [] ⟨s, idle⟩
  /-- An accepted order rests for an auction. -/
  | restAuction {s : MatchingEngine} {t : Taker} :
      s.Admits t → G.account t.accountId → G.entry s t → s.inAuction t.symbol →
      Tick G ⟨s, idle⟩ (t.restedEvents s) ⟨t.rested s, idle⟩
  | cancel {s : MatchingEngine} {id : OrderId} {owner : OrderOwnership} :
      s.orderOwnershipById.lookup id = some owner → s.Rests owner.symbol id →
      Tick G ⟨s, idle⟩
        (((s.bookFor owner.symbol).cancel id).1.map (Event.tagCanceled owner.symbol))
        ⟨s.cancelResting owner.accountId owner.symbol id, idle⟩
  | auctionTrade {s : MatchingEngine} {symbol : Symbol} {price remaining traded : ℤ}
      {bid ask : FillResult} {book book' : OrderBook} :
      nextAuctionQty (s.bookFor symbol) price remaining = some traded →
      G.auction (s.bookFor symbol) price traded →
      (s.bookFor symbol).fillBestAtOrBetter .bid price traded = some (bid, book) →
      book.fillBestAtOrBetter .ask price traded = some (ask, book') →
      Tick G ⟨s, idle⟩ (auctionTradeEvents symbol bid.makerId ask.makerId price traded)
        ⟨s.auctionTraded symbol price traded bid.makerId ask.makerId book', idle⟩
  | endAuction {s : MatchingEngine} {symbol : Symbol} : s.inAuction symbol →
      Tick G ⟨s, idle⟩ [.auctionEnded symbol .continuous] ⟨s.auctionEnded symbol, idle⟩
  | halt (s : MatchingEngine) (symbol : Symbol) (reason : String) :
      Tick G ⟨s, idle⟩ [] ⟨s.withHalt symbol reason, idle⟩

/-- Where an operation that throws leaves the engine: after a trade whose accounts fail the
engine's assertion, an auction's last tick or the fill that never became one. -/
def Config.AbortsTo (c : Config) (s' : MatchingEngine) : Prop :=
  match c.flight with
  | idle => s' = c.engine ∧ ∃ symbol a b, c.engine.accounts.lookup a ≠ none ∧
      c.engine.accounts.lookup b ≠ none ∧ ¬ c.engine.InvariantsHold symbol a b
  | matching t => ∃ fill book, c.engine.nextFill t = some (fill, book) ∧
      c.engine.priceInBand t.symbol fill.price ∧
      ¬ (c.engine.journaled t fill book).InvariantsHold t.symbol t.accountId
        (c.engine.ownerAccountId fill.makerId) ∧
      s' = c.engine.journaled t fill book
  | matched _ => False

end Tes
