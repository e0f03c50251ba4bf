import Tes.Library.Rounding

/-! A reserve that gives up its share, rounded up, of every part of a whole that is used up. What it
backs of the whole may be the part that is used up last. -/
namespace ProRata
open Rounding

/-- What a reserve keeps when `part` of `whole` is used up. -/
def kept (reserve part whole : ℤ) : ℤ := reserve - min reserve (ceilShare reserve part whole)

section Kept
variable {reserve part whole n : ℤ}

theorem kept_nonneg : 0 ≤ kept reserve part whole := by
  unfold kept
  omega

/-- The reserve keeps its share of the rest, rounded down. -/
theorem le_kept_iff (hreserve : 0 ≤ reserve) (hwhole : 0 < whole) (hpart : part ≤ whole) :
    n ≤ kept reserve part whole ↔ n * whole ≤ reserve * (whole - part) := by
  have hwhole' : (0 : ℚ) < whole := by exact_mod_cast hwhole
  have hshare : ceilShare reserve part whole ≤ reserve := by
    apply Int.ceil_le.mpr
    rw [div_le_iff₀ hwhole']
    have hle : reserve * part ≤ reserve * whole := mul_le_mul_of_nonneg_left hpart hreserve
    exact_mod_cast hle
  rw [kept, min_eq_right hshare, le_sub_comm, ceilShare, Int.ceil_le, div_le_iff₀ hwhole']
  have hcast : ((reserve : ℚ) * part ≤ ((reserve - n : ℤ) : ℚ) * whole) ↔
      reserve * part ≤ (reserve - n) * whole := by
    exact_mod_cast Iff.rfl
  rw [hcast]
  constructor
  · intro h
    linarith
  · intro h
    linarith

/-- It keeps no less where the whole seems larger. -/
theorem kept_mono {larger : ℤ} (hreserve : 0 ≤ reserve) (hwhole : 0 < whole) (hpart : 0 ≤ part)
    (hle : part ≤ whole) (hlarger : whole ≤ larger) :
    kept reserve part whole ≤ kept reserve part larger := by
  have hself := (le_kept_iff hreserve hwhole hle).mp (le_refl (kept reserve part whole))
  apply (le_kept_iff hreserve (hwhole.trans_le hlarger) (hle.trans hlarger)).mpr
  have hlow : kept reserve part whole ≤ reserve := by
    apply sub_le_self
    exact le_min hreserve (ceilShare_nonneg hreserve hpart hwhole.le)
  have hmore : kept reserve part whole * (larger - whole) ≤ reserve * (larger - whole) :=
    mul_le_mul_of_nonneg_right hlow (by omega)
  linarith

end Kept

/-- A reserve covers what `short` of the `left` units need, less `slack`, and so does the share of
it that any number of the units keeps, less one more. -/
structure Ample (need : ℤ → ℤ) (slack left short reserve : ℤ) : Prop where
  nonneg : 0 ≤ reserve
  bound : need short - slack ≤ reserve
  shares : ∀ n, 0 < n → n ≤ left → (need (min short n) - slack - 1) * left ≤ reserve * n

section Ample
variable {need : ℤ → ℤ} {slack left short reserve part : ℤ}

/-- The shares of the whole reserve are those of fewer units, if it covers the need at first. -/
theorem ample_iff (hreserve : 0 ≤ reserve) (hleft : 0 < left) (hshort : short ≤ left)
    (hbound : need short - slack ≤ reserve) : Ample need slack left short reserve ↔
      ∀ n, 0 < n → n < left → (need (min short n) - slack - 1) * left ≤ reserve * n := by
  constructor
  · intro h n hpos hn
    exact h.shares n hpos hn.le
  · intro h
    refine ⟨hreserve, hbound, fun n hpos hn => ?_⟩
    rcases eq_or_lt_of_le hn with rfl | hlt
    · rw [min_eq_left hshort]
      apply mul_le_mul_of_nonneg_right _ hleft.le
      omega
    · exact h n hpos hlt

theorem Ample.mono {slack' : ℤ} (h : Ample need slack left short reserve) (hle : slack ≤ slack') :
    Ample need slack' left short reserve := by
  have hbound := h.bound
  refine ⟨h.nonneg, by omega, fun n hpos hn => ?_⟩
  have hshares := h.shares n hpos hn
  have hless : (need (min short n) - slack' - 1) * left ≤ (need (min short n) - slack - 1) * left := by
    apply mul_le_mul_of_nonneg_right _ (by omega)
    omega
  omega

/-- A part that is used up costs one unit of slack. -/
theorem Ample.use (h : Ample need slack left short reserve) (hpart : 0 < part) (hlt : part < left)
    {reserve' : ℤ} (hkept : kept reserve part left ≤ reserve') :
    Ample need (slack + 1) (left - part) (min short (left - part)) reserve' := by
  have hrest : 0 < left - part := by omega
  have hleft : 0 < left := hpart.trans hlt
  have hnonneg : 0 ≤ reserve' := kept_nonneg.trans hkept
  refine ⟨hnonneg, ?_, fun n hn hle => ?_⟩
  · have hshares := h.shares (left - part) hrest (by omega)
    have hneed := (le_kept_iff h.nonneg hleft hlt.le).mpr hshares
    omega
  · rw [min_assoc, min_eq_right hle]
    have hshares := h.shares n hn (by omega)
    have hbelow : reserve * (left - part) < (reserve' + 1) * left := by
      by_contra hnot
      have hover := (le_kept_iff h.nonneg hleft hlt.le).mpr (not_lt.mp hnot)
      omega
    have hscaled : (need (min short n) - slack - 1) * (left - part) * left <
        (reserve' + 1) * n * left := by
      calc (need (min short n) - slack - 1) * (left - part) * left
          = (need (min short n) - slack - 1) * left * (left - part) := by ring
        _ ≤ reserve * n * (left - part) := mul_le_mul_of_nonneg_right hshares hrest.le
        _ = reserve * (left - part) * n := by ring
        _ < (reserve' + 1) * left * n := mul_lt_mul_of_pos_right hbelow hn
        _ = (reserve' + 1) * n * left := by ring
    have hunscaled := lt_of_mul_lt_mul_right hscaled hleft.le
    have hsplit : (need (min short n) - (slack + 1) - 1) * (left - part) =
        (need (min short n) - slack - 1) * (left - part) - (left - part) := by ring
    have hexpand : (reserve' + 1) * n = reserve' * n + n := by ring
    rw [hsplit]
    omega

end Ample
end ProRata
