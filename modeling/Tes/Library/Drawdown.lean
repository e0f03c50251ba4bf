import Mathlib.Algebra.Order.Group.Defs
import Mathlib.Data.List.Basic
import Mathlib.Order.Bounds.Basic
import Mathlib.Tactic.Abel

/-! The largest drop of a curve from a value to a later one, in one pass that keeps the peak. -/
namespace Drawdown

variable {α : Type} [AddCommGroup α]

/-- The drops from each value to itself and to the later ones. -/
def drops (curve : List α) : Set α :=
  {d | ∃ (i j : ℕ) (x y : α), i ≤ j ∧ curve[i]? = some x ∧ curve[j]? = some y ∧ d = x - y}

section Drops
variable {curve : List α} {d value : α}

/-- A drop of a longer curve is one of the shorter, or one to the last value. -/
theorem mem_drops_concat : d ∈ drops (curve ++ [value]) ↔
    d ∈ drops curve ∨ ∃ x ∈ curve ++ [value], d = x - value := by
  constructor
  · rintro ⟨i, j, x, y, hij, hx, hy, rfl⟩
    by_cases hj : j < curve.length
    · rw [List.getElem?_append_left hj] at hy
      rw [List.getElem?_append_left (hij.trans_lt hj)] at hx
      exact Or.inl ⟨i, j, x, y, hij, hx, hy, rfl⟩
    · have hlast : j < (curve ++ [value]).length := (List.getElem?_eq_some_iff.mp hy).1
      rw [List.length_append, List.length_singleton] at hlast
      have hend : j = curve.length := by omega
      rw [hend, List.getElem?_concat_length] at hy
      apply Or.inr
      exact ⟨x, List.mem_of_getElem? hx, by rw [Option.some.inj hy]⟩
  · rintro (⟨i, j, x, y, hij, hx, hy, rfl⟩ | ⟨x, hx, rfl⟩)
    · have hi := (List.getElem?_eq_some_iff.mp hx).1
      have hj := (List.getElem?_eq_some_iff.mp hy).1
      refine ⟨i, j, x, y, hij, ?_, ?_, rfl⟩
      · rw [List.getElem?_append_left hi, hx]
      · rw [List.getElem?_append_left hj, hy]
    · obtain ⟨i, hi⟩ := List.mem_iff_getElem?.mp hx
      have hlt := (List.getElem?_eq_some_iff.mp hi).1
      rw [List.length_append, List.length_singleton] at hlt
      exact ⟨i, curve.length, x, value, by omega, hi, List.getElem?_concat_length, rfl⟩

theorem drops_append (curve more : List α) : drops curve ⊆ drops (curve ++ more) := by
  rintro d ⟨i, j, x, y, hij, hx, hy, rfl⟩
  have hi := (List.getElem?_eq_some_iff.mp hx).1
  have hj := (List.getElem?_eq_some_iff.mp hy).1
  refine ⟨i, j, x, y, hij, ?_, ?_, rfl⟩
  · rw [List.getElem?_append_left hi, hx]
  · rw [List.getElem?_append_left hj, hy]

end Drops

variable [LinearOrder α]

/-- One value more, with the peak and the largest drop of the values before it. -/
def step (state : α × α) (value : α) : α × α :=
  let peak := max state.1 value
  (peak, max state.2 (peak - value))

/-- The peak and the largest drop of the values so far. -/
structure Tracks (curve : List α) (state : α × α) : Prop where
  peak : IsGreatest {x | x ∈ curve} state.1
  drop : IsGreatest (drops curve) state.2

section Pass
variable {curve : List α} {state : α × α}

theorem Tracks.singleton (value : α) : Tracks [value] (value, 0) := by
  constructor
  · constructor
    · exact List.mem_singleton_self value
    · intro x hx
      exact (List.mem_singleton.mp hx).le
  · constructor
    · exact ⟨0, 0, value, value, le_rfl, rfl, rfl, (sub_self value).symm⟩
    · intro d hd
      have hconcat : d ∈ drops ([] ++ [value]) := hd
      rcases mem_drops_concat.mp hconcat with ⟨i, j, x, y, -, hx, -⟩ | ⟨x, hx, rfl⟩
      · cases hx
      · rw [List.mem_singleton.mp hx, sub_self]

variable [IsOrderedAddMonoid α]

theorem Tracks.step (h : Tracks curve state) (value : α) :
    Tracks (curve ++ [value]) (step state value) := by
  obtain ⟨⟨hmem, hpeak⟩, ⟨hdrop, hbound⟩⟩ := h
  have hupper : ∀ x ∈ curve ++ [value], x ≤ max state.1 value := by
    intro x hx
    rcases List.mem_append.mp hx with hold | hnew
    · exact le_max_of_le_left (hpeak hold)
    · exact le_max_of_le_right (List.mem_singleton.mp hnew).le
  have hreached : max state.1 value ∈ curve ++ [value] := by
    rcases max_choice state.1 value with heq | heq
    · rw [heq]
      exact List.mem_append_left _ hmem
    · rw [heq]
      exact List.mem_append_right _ (List.mem_singleton_self value)
  constructor
  · exact ⟨hreached, hupper⟩
  · constructor
    · apply mem_drops_concat.mpr
      unfold Drawdown.step
      dsimp only
      rcases max_choice state.2 (max state.1 value - value) with heq | heq
      · rw [heq]
        exact Or.inl hdrop
      · rw [heq]
        exact Or.inr ⟨_, hreached, rfl⟩
    · intro d hd
      rcases mem_drops_concat.mp hd with hold | ⟨x, hx, rfl⟩
      · exact le_max_of_le_left (hbound hold)
      · exact le_max_of_le_right (sub_le_sub_right (hupper x hx) value)

/-- The pass keeps the peak and the largest drop, whatever it has passed already. -/
theorem Tracks.foldl (h : Tracks curve state) (rest : List α) :
    Tracks (curve ++ rest) (rest.foldl Drawdown.step state) := by
  induction rest generalizing curve state with
  | nil =>
    rw [List.append_nil]
    exact h
  | cons value rest ih =>
    have hstep := ih (h.step value)
    rwa [List.append_assoc] at hstep

end Pass

section Greatest
variable {curve : List α} {greatest : α}

theorem zero_le_greatest (hne : curve ≠ []) (h : IsGreatest (drops curve) greatest) :
    0 ≤ greatest := by
  obtain ⟨value, rest, rfl⟩ := List.exists_cons_of_ne_nil hne
  exact h.2 ⟨0, 0, value, value, le_rfl, rfl, rfl, (sub_self value).symm⟩

variable [IsOrderedAddMonoid α]

/-- The largest drop is none exactly where no value is below an earlier one. -/
theorem greatest_eq_zero_iff (hne : curve ≠ []) (h : IsGreatest (drops curve) greatest) :
    greatest = 0 ↔ curve.Pairwise (· ≤ ·) := by
  constructor
  · intro hzero
    apply List.pairwise_iff_getElem.mpr
    intro i j hi hj hij
    have hdrop : curve[i] - curve[j] ≤ greatest :=
      h.2 ⟨i, j, _, _, hij.le, List.getElem?_eq_getElem hi, List.getElem?_eq_getElem hj, rfl⟩
    rw [hzero] at hdrop
    exact sub_nonpos.mp hdrop
  · intro hsorted
    apply le_antisymm _ (zero_le_greatest hne h)
    obtain ⟨i, j, x, y, hij, hx, hy, hd⟩ := h.1
    obtain ⟨hi, rfl⟩ := List.getElem?_eq_some_iff.mp hx
    obtain ⟨hj, rfl⟩ := List.getElem?_eq_some_iff.mp hy
    rw [hd]
    apply sub_nonpos.mpr
    rcases hij.lt_or_eq with hlt | heq
    · exact List.pairwise_iff_getElem.mp hsorted i j hi hj hlt
    · subst heq
      exact le_rfl

end Greatest
end Drawdown
