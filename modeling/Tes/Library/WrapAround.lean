import Mathlib.Data.Int.Basic
import Mathlib.Tactic.Positivity
import Mathlib.Tactic.Ring
import Mathlib.Data.Set.Operations
import Mathlib.Order.Defs.LinearOrder

/-! Signed integers of a fixed width whose operations wrap around. -/
namespace WrapAround

/-- What a signed register of the width holds. -/
def Fits (width : ℕ) (x : ℤ) : Prop := -(2 ^ width : ℤ) ≤ 2 * x ∧ 2 * x < 2 ^ width

instance (width : ℕ) (x : ℤ) : Decidable (Fits width x) := inferInstanceAs (Decidable (_ ∧ _))

/-- The value the register holds of an integer: the one that agrees with it modulo `2 ^ width`. -/
def wrap (width : ℕ) (x : ℤ) : ℤ := x.bmod (2 ^ width)

variable {width : ℕ} {x y z : ℤ}

theorem Fits.between (hx : Fits width x) (hz : Fits width z) (hxy : x ≤ y) (hyz : y ≤ z) :
    Fits width y := by
  obtain ⟨hlow, -⟩ := hx
  obtain ⟨-, hhigh⟩ := hz
  constructor <;> omega

theorem fits_zero (width : ℕ) : Fits width 0 := by
  have hpos : (0 : ℤ) < 2 ^ width := by positivity
  constructor <;> omega

/-- What lies between a value of the register and a value away from it by a multiple of one sign. -/
theorem Fits.of_abs_le (hx : Fits width x) (hxz : Fits width (x + z))
    (hy : 0 ≤ y ∧ y ≤ z ∨ z ≤ y ∧ y ≤ 0) : Fits width (x + y) := by
  rcases hy with ⟨hlow, hhigh⟩ | ⟨hlow, hhigh⟩
  · exact hx.between hxz (by omega) (by omega)
  · exact hxz.between hx (by omega) (by omega)

theorem wrap_eq (h : Fits width x) : wrap width x = x := by
  obtain ⟨hlow, hhigh⟩ := h
  apply Int.bmod_eq_of_le_mul_two
  · push_cast
    omega
  · push_cast
    omega

theorem fits_wrap (hwidth : 0 < width) (x : ℤ) : Fits width (wrap width x) := by
  obtain ⟨n, rfl⟩ : ∃ n, width = n + 1 := ⟨width - 1, by omega⟩
  have hpos : 0 < 2 ^ (n + 1) := by positivity
  have hlow := @Int.le_bmod x _ hpos
  have hhigh := @Int.bmod_lt x _ hpos
  have heven : (2 ^ (n + 1) : ℤ) = 2 * 2 ^ n := by ring
  push_cast at hlow hhigh
  rw [heven] at hlow hhigh
  unfold Fits wrap
  rw [heven]
  constructor <;> omega

/-- A sum may wrap its terms first. -/
theorem wrap_add_wrap (width : ℕ) (x y : ℤ) : wrap width (x + wrap width y) = wrap width (x + y) :=
  Int.add_bmod_bmod

end WrapAround
