import Mathlib.Data.Rat.Floor
import Mathlib.Tactic.Linarith
import Mathlib.Tactic.Ring
import Mathlib.Tactic.Positivity
import Mathlib.Tactic.FieldSimp

/-! Rounding of exact rationals: nearest with halves away from zero, and the share of an
amount rounded up. -/
namespace Rounding

/-- The nearest integer; a midpoint goes away from zero. -/
def llround (x : ℚ) : ℤ := if 0 ≤ x then ⌊x + 1 / 2⌋ else -⌊-x + 1 / 2⌋

theorem llround_nonneg {x : ℚ} (hx : 0 ≤ x) : 0 ≤ llround x := by
  rw [llround, if_pos hx]
  exact Int.floor_nonneg.mpr (by linarith)

@[simp] theorem llround_intCast (k : ℤ) : llround (k : ℚ) = k := by
  have hfloor : ∀ j : ℤ, ⌊(j : ℚ) + 1 / 2⌋ = j := fun j => by
    rw [Int.floor_eq_iff]
    constructor <;> linarith
  unfold llround
  split_ifs
  · exact hfloor k
  · rw [← Int.cast_neg, hfloor, neg_neg]

@[simp] theorem llround_zero : llround 0 = 0 := by
  simpa using llround_intCast 0

theorem llround_mono {x y : ℚ} (hx : 0 ≤ x) (hxy : x ≤ y) : llround x ≤ llround y := by
  rw [llround, llround, if_pos hx, if_pos (hx.trans hxy)]
  exact Int.floor_le_floor (by linarith)

/-- The part of `amount` that `part` makes out of `whole`, rounded up. -/
def ceilShare (amount part whole : ℤ) : ℤ := ⌈(amount : ℚ) * part / whole⌉

theorem ceilShare_whole (amount : ℤ) {whole : ℤ} (h : whole ≠ 0) :
    ceilShare amount whole whole = amount := by
  have hw : (whole : ℚ) ≠ 0 := by exact_mod_cast h
  rw [ceilShare, mul_div_assoc, div_self hw, mul_one, Int.ceil_intCast]

theorem ceilShare_nonneg {amount part whole : ℤ} (ha : 0 ≤ amount) (hp : 0 ≤ part)
    (hw : 0 ≤ whole) : 0 ≤ ceilShare amount part whole := by
  refine Int.ceil_nonneg ?_
  have ha' : (0 : ℚ) ≤ amount := by exact_mod_cast ha
  have hp' : (0 : ℚ) ≤ part := by exact_mod_cast hp
  have hw' : (0 : ℚ) ≤ whole := by exact_mod_cast hw
  positivity

end Rounding
