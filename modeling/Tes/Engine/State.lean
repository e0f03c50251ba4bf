import Tes.Library.FiniteMap
import Tes.Library.Exception
import Tes.Library.Rounding
import Tes.Engine.OrderBook

/-! The state of the matching engine. Monetary amounts are exact integers; what the
engine keeps in floating point is read as an exact rational. -/
namespace Tes

inductive AccountRiskMode
  | cashOnly
  | margin
  deriving DecidableEq, Repr

structure AccountRiskConfig where
  mode : AccountRiskMode := .cashOnly
  allowShortSelling : Bool := false
  maxLeverage : ℚ := 1
  initialMarginRequirement : ℚ := 1
  maintenanceMarginRequirement : ℚ := 1
  shortMarginRequirement : ℚ := 1
  initialMarginRequirementBySymbol : Finmap fun _ : Symbol => ℚ := ∅
  maintenanceMarginRequirementBySymbol : Finmap fun _ : Symbol => ℚ := ∅
  shortMarginRequirementBySymbol : Finmap fun _ : Symbol => ℚ := ∅

structure MarginSnapshot where
  grossExposure : ℚ := 0
  netLiquidationValue : ℚ := 0
  equity : ℚ := 0
  marginUsed : ℚ := 0
  availableBuyingPower : ℚ := 0
  shortExposure : ℚ := 0
  maintenanceRequirement : ℚ := 0
  marginCall : Bool := false
  deriving DecidableEq, Repr

structure FeeModel where
  makerFeeRate : ℚ := 0
  takerFeeRate : ℚ := 0
  fixedFee : Option ℤ := none
  deriving DecidableEq, Repr

structure AccountLedgerEntry where
  sequence : ℕ := 0
  accountId : AccountId
  symbol : Symbol
  reason : String
  cashDelta : ℤ := 0
  positionDelta : ℤ := 0
  reservedCashDelta : ℤ := 0
  reservedPositionDelta : ℤ := 0
  relatedOrderId : Option OrderId := none
  relatedTradeId : Option OrderId := none
  feeDelta : ℤ := 0
  deriving DecidableEq, Repr

structure AccountSnapshot where
  cashBalance : ℤ := 0
  positionQtyBySymbol : Finmap fun _ : Symbol => ℤ := ∅
  reservedCash : ℤ := 0
  reservedQtyBySymbol : Finmap fun _ : Symbol => ℤ := ∅
  reservedShortMargin : ℤ := 0
  averageCostBySymbol : Finmap fun _ : Symbol => ℚ := ∅
  realizedPnlBySymbol : Finmap fun _ : Symbol => ℚ := ∅
  realizedPnl : ℚ := 0

structure PerformanceSnapshot where
  cashBalance : ℤ := 0
  reservedCash : ℤ := 0
  positionQtyBySymbol : Finmap fun _ : Symbol => ℤ := ∅
  averageCostBySymbol : Finmap fun _ : Symbol => ℚ := ∅
  realizedPnl : ℚ := 0
  realizedPnlBySymbol : Finmap fun _ : Symbol => ℚ := ∅
  unrealizedPnlBySymbol : Finmap fun _ : Symbol => ℚ := ∅
  unrealizedPnl : ℚ := 0
  totalEquity : ℚ := 0

structure PriceBand where
  lowerPrice : Option ℤ
  upperPrice : Option ℤ
  deriving DecidableEq, Repr

structure OrderOwnership where
  accountId : AccountId
  symbol : Symbol
  side : Side
  price : ℤ
  qty : ℤ
  visibility : OrderVisibility
  displayQty : ℤ
  deriving DecidableEq, Repr

structure StopOrderState where
  accountId : AccountId
  symbol : Symbol
  side : Side
  stopPrice : ℤ
  qty : ℤ
  limitPrice : Option ℤ
  sequence : OrderId
  deriving DecidableEq, Repr

structure MatchingEngine where
  books : Finmap fun _ : Symbol => OrderBook := ∅
  nextOrderId : OrderId := 1
  accounts : Finmap fun _ : AccountId => AccountSnapshot := ∅
  orderOwnershipById : Finmap fun _ : OrderId => OrderOwnership := ∅
  stopOrdersById : Finmap fun _ : OrderId => StopOrderState := ∅
  pendingStopIdsBySymbol : Finmap fun _ : Symbol => List OrderId := ∅
  reservedCashByOrderId : Finmap fun _ : OrderId => ℤ := ∅
  reservedQtyByOrderId : Finmap fun _ : OrderId => ℤ := ∅
  reservedShortMarginByOrderId : Finmap fun _ : OrderId => ℤ := ∅
  riskConfigs : Finmap fun _ : AccountId => AccountRiskConfig := ∅
  sequenceNumbersBySymbol : Finmap fun _ : Symbol => ℕ := ∅
  accountLedger : List AccountLedgerEntry := []
  nextLedgerSequence : ℕ := 1
  feeModel : FeeModel := {}
  latestMarkBySymbol : Finmap fun _ : Symbol => ℚ := ∅
  tradingPhasesBySymbol : Finmap fun _ : Symbol => TradingPhase := ∅
  haltReasonsBySymbol : Finmap fun _ : Symbol => String := ∅
  priceBandsBySymbol : Finmap fun _ : Symbol => PriceBand := ∅

/-- What an operation throws. The state it had reached by then is kept. -/
inductive EngineError
  | invalidArgument (what : String)
  | runtimeError (what : String)
  deriving DecidableEq, Repr

/-- A computation of the engine: it reads and writes the state and may throw. -/
abbrev Engine := EStateM EngineError MatchingEngine

def defaultAccountId : AccountId := 0

/-- A quarter of the largest 64-bit signed integer. -/
def defaultLegacyCash : ℤ := 2305843009213693951
def defaultLegacyPosition : ℤ := 2305843009213693951

namespace AccountSnapshot

def position (account : AccountSnapshot) (symbol : Symbol) : ℤ :=
  account.positionQtyBySymbol.valueD symbol 0

def reservedQty (account : AccountSnapshot) (symbol : Symbol) : ℤ :=
  account.reservedQtyBySymbol.valueD symbol 0

def averageCost (account : AccountSnapshot) (symbol : Symbol) : ℚ :=
  account.averageCostBySymbol.valueD symbol 0

def realizedPnlOf (account : AccountSnapshot) (symbol : Symbol) : ℚ :=
  account.realizedPnlBySymbol.valueD symbol 0

/-- The account after its position and reserved quantity of a symbol are looked at by
reference, which makes their entries. -/
def openSymbol (account : AccountSnapshot) (symbol : Symbol) : AccountSnapshot :=
  { account with
    positionQtyBySymbol := account.positionQtyBySymbol.insert symbol (account.position symbol)
    reservedQtyBySymbol := account.reservedQtyBySymbol.insert symbol
      (account.reservedQty symbol) }

end AccountSnapshot

namespace MatchingEngine

/-- The account's record, a fresh one where it has none. -/
def account (s : MatchingEngine) (accountId : AccountId) : AccountSnapshot :=
  s.accounts.valueD accountId {}

/-- Write through a reference to the account's record. -/
def updateAccount (s : MatchingEngine) (accountId : AccountId)
    (f : AccountSnapshot → AccountSnapshot) : MatchingEngine :=
  { s with accounts := s.accounts.insert accountId (f (s.account accountId)) }

def bookFor (s : MatchingEngine) (symbol : Symbol) : OrderBook := s.books.valueD symbol {}

def setBook (s : MatchingEngine) (symbol : Symbol) (book : OrderBook) : MatchingEngine :=
  { s with books := s.books.insert symbol book }

def appendLedgerEntry (s : MatchingEngine) (entry : AccountLedgerEntry) : MatchingEngine :=
  { s with
    accountLedger := s.accountLedger ++ [{ entry with sequence := s.nextLedgerSequence }]
    nextLedgerSequence := s.nextLedgerSequence + 1 }

def tradingPhase (s : MatchingEngine) (symbol : Symbol) : TradingPhase :=
  s.tradingPhasesBySymbol.valueD symbol .continuous

def isHalted (s : MatchingEngine) (symbol : Symbol) : Prop := s.tradingPhase symbol = .halted

instance (s : MatchingEngine) (symbol : Symbol) : Decidable (s.isHalted symbol) :=
  inferInstanceAs (Decidable (_ = _))

/-- The symbol collects orders for an auction. -/
def inAuction (s : MatchingEngine) (symbol : Symbol) : Prop :=
  s.tradingPhase symbol = .openingAuction ∨ s.tradingPhase symbol = .closingAuction

instance (s : MatchingEngine) (symbol : Symbol) : Decidable (s.inAuction symbol) :=
  inferInstanceAs (Decidable (_ ∨ _))

def priceInBand (s : MatchingEngine) (symbol : Symbol) (price : ℤ) : Prop :=
  ∀ band ∈ s.priceBandsBySymbol.lookup symbol,
    (∀ lower ∈ band.lowerPrice, lower ≤ price) ∧ ∀ upper ∈ band.upperPrice, price ≤ upper

instance (s : MatchingEngine) (symbol : Symbol) (price : ℤ) :
    Decidable (s.priceInBand symbol price) :=
  inferInstanceAs (Decidable (∀ band ∈ s.priceBandsBySymbol.lookup symbol, _ ∧ _))

def validateMarketControl (s : MatchingEngine) (symbol : Symbol) (price : ℤ) :
    Option RejectReason :=
  if s.isHalted symbol then some .symbolHalted
  else if ¬ s.priceInBand symbol price then some .priceBandViolation
  else none

/-- The phase and reason of a halt. -/
def withHalt (s : MatchingEngine) (symbol : Symbol) (reason : String) : MatchingEngine :=
  { s with
    tradingPhasesBySymbol := s.tradingPhasesBySymbol.insert symbol .halted
    haltReasonsBySymbol := s.haltReasonsBySymbol.insert symbol reason }

/-- The symbol whose displayed-book sequence number an event advances. -/
def sequencedSymbol : Event → Option Symbol
  | .orderAccepted _ _ _ _ symbol => some symbol
  | .icebergOrderAccepted _ _ _ _ _ _ _ symbol => some symbol
  | .icebergReplenished clip => some clip.symbol
  | .stopOrderAccepted _ _ _ _ _ symbol => some symbol
  | .stopOrderTriggered _ _ _ _ _ _ symbol => some symbol
  | .orderCanceled _ symbol => some symbol
  | .tradeExecuted _ _ _ _ _ symbol => some symbol
  | _ => none

def bumpSequenceNumber (s : MatchingEngine) (event : Event) : MatchingEngine :=
  match sequencedSymbol event with
  | some symbol =>
    { s with
      sequenceNumbersBySymbol := s.sequenceNumbersBySymbol.insert symbol
        (s.sequenceNumbersBySymbol.valueD symbol 0 + 1) }
  | none => s

def trackEvents (s : MatchingEngine) (events : List Event) : MatchingEngine :=
  events.foldl bumpSequenceNumber s

/-- The top-of-book event of a symbol, if its displayed best prices have changed. -/
def maybeEmitTopOfBookChange (s : MatchingEngine) (symbol : Symbol)
    (previousBestBid previousBestAsk : Option ℤ) : List Event :=
  (s.bookFor symbol).maybeEmitTopOfBookChange symbol previousBestBid previousBestAsk

end MatchingEngine
end Tes
