import Mathlib.Algebra.Order.Ring.Rat
import Tes.Library.Drawdown

/-! The figures of a run that tournaments rank by. A number is an exact rational; a value that is
no number is none. -/
namespace Tes
open Drawdown

def number (value : Option ℚ) (fallback : ℚ) : ℚ := value.getD fallback

/-- A value that is no number counts as the peak so far. A curve that is no list is none. -/
def maxDrawdown (curve : Option (List (Option ℚ))) : ℚ :=
  match curve with
  | none => 0
  | some [] => 0
  | some (first :: rest) =>
    ((first :: rest).foldl (fun (peak, drawdown) item =>
      let value := number item peak
      let peak := max peak value
      (peak, max drawdown (peak - value))) (number first 0, 0)).2

theorem tracks_maxDrawdown {curve : List ℚ} (hne : curve ≠ []) :
    ∃ peak, Tracks curve (peak, maxDrawdown (some (curve.map some))) := by
  obtain ⟨first, rest, rfl⟩ := List.exists_cons_of_ne_nil hne
  have hfirst : step (first, 0) first = (first, 0) := by
    unfold step
    dsimp only
    rw [max_self, sub_self, max_self]
  have hpass : maxDrawdown (some ((first :: rest).map some)) =
      ((first :: rest).foldl step (first, 0)).2 := by
    unfold maxDrawdown
    rw [List.map_cons]
    dsimp only
    rw [← List.map_cons, List.foldl_map]
    rfl
  rw [hpass, List.foldl_cons, hfirst]
  exact ⟨_, (Tracks.singleton first).foldl rest⟩

/-- The maximum drawdown is the largest drop from a value to a later one, so it is not negative,
none for curves that never fall only, and no lower after one value more. -/
theorem maxDrawdown_isGreatest {curve : List ℚ} (hne : curve ≠ []) :
    IsGreatest (drops curve) (maxDrawdown (some (curve.map some))) ∧
    0 ≤ maxDrawdown (some (curve.map some)) ∧
    (maxDrawdown (some (curve.map some)) = 0 ↔ curve.Pairwise (· ≤ ·)) ∧
    ∀ value, maxDrawdown (some (curve.map some)) ≤
      maxDrawdown (some ((curve ++ [value]).map some)) := by
  obtain ⟨peak, htracks⟩ := tracks_maxDrawdown hne
  have hgreatest := htracks.drop
  refine ⟨hgreatest, zero_le_greatest hne hgreatest, greatest_eq_zero_iff hne hgreatest, ?_⟩
  intro value
  have hmore : curve ++ [value] ≠ [] := List.append_ne_nil_of_left_ne_nil hne [value]
  obtain ⟨peak', htracks'⟩ := tracks_maxDrawdown hmore
  exact htracks'.drop.2 (drops_append curve [value] hgreatest.1)

theorem maxDrawdown_isGreatest_dip :
    IsGreatest (drops [100, 120, 90, 130]) (maxDrawdown (some ([100, 120, 90, 130].map some))) ∧
    maxDrawdown (some ([100, 120, 90, 130].map some)) = 30 :=
  ⟨(maxDrawdown_isGreatest (by simp)).1, by decide +kernel⟩

end Tes
