import Mathlib.Order.Defs.Unbundled
import Mathlib.Data.Int.Order.Basic

/-! Identifiers, enumerations and orders. Prices are ticks and quantities are units,
both exact integers; a symbol is any string. -/
namespace Tes

abbrev OrderId := ℕ
abbrev AccountId := ℕ
abbrev Symbol := String

def defaultSymbol : Symbol := "DEFAULT"

inductive Side
  | bid
  | ask
  deriving DecidableEq, Repr

inductive TimeInForce
  | gtc
  | ioc
  | fok
  deriving DecidableEq, Repr

inductive TradingPhase
  | continuous
  | openingAuction
  | closingAuction
  | halted
  deriving DecidableEq, Repr

inductive OrderVisibility
  | displayed
  | hidden
  | iceberg
  deriving DecidableEq, Repr

abbrev isValidPrice (price : ℤ) : Prop := 0 ≤ price
abbrev isValidQty (qty : ℤ) : Prop := 0 < qty

structure Order where
  id : OrderId
  side : Side
  price : ℤ
  qty : ℤ
  visibility : OrderVisibility := .displayed
  totalQty : ℤ := 0
  displayQty : ℤ := 0
  reserveQty : ℤ := 0
  deriving DecidableEq, Repr

namespace Side

/-- The side a taker trades against. -/
def opposite : Side → Side
  | .bid => .ask
  | .ask => .bid

@[simp] theorem opposite_bid : opposite .bid = .ask := rfl
@[simp] theorem opposite_ask : opposite .ask = .bid := rfl
@[simp] theorem opposite_opposite (side : Side) : side.opposite.opposite = side := by
  cases side <;> rfl

/-- The order in which a side of the book lists its prices: best first. -/
def before : Side → ℤ → ℤ → Prop
  | .bid, p, q => q < p
  | .ask, p, q => p < q

instance (side : Side) : DecidableRel side.before := fun p q =>
  match side with
  | .bid => inferInstanceAs (Decidable (q < p))
  | .ask => inferInstanceAs (Decidable (p < q))

instance (side : Side) : IsStrictTotalOrder ℤ side.before where
  trichotomous p q hpq hqp := by
    cases side <;> simp only [before] at hpq hqp <;> omega
  irrefl p := by cases side <;> simp [before]
  trans p q r hpq hqr := by
    cases side <;> simp only [before] at * <;> omega

end Side

/-- A taker with this limit trades with an order resting at that price. -/
def crosses : Side → ℤ → ℤ → Prop
  | .bid, limitPrice, restingPrice => restingPrice ≤ limitPrice
  | .ask, limitPrice, restingPrice => limitPrice ≤ restingPrice

instance (side : Side) (limitPrice restingPrice : ℤ) :
    Decidable (crosses side limitPrice restingPrice) :=
  match side with
  | .bid => inferInstanceAs (Decidable (restingPrice ≤ limitPrice))
  | .ask => inferInstanceAs (Decidable (limitPrice ≤ restingPrice))

end Tes
