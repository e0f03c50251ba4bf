import Mathlib.Data.Finmap
import Mathlib.Algebra.BigOperators.Group.Finset.Basic
import Mathlib.Algebra.BigOperators.Ring.Finset
import Mathlib.Algebra.Order.BigOperators.Group.Finset

/-! Finite maps read with a default, and sums over their entries. The key order is
never observable, so these maps stand for unordered ones. -/
namespace Finmap

variable {K V M : Type} [DecidableEq K]

theorem lookup_insert_ite (m : Finmap fun _ : K => V) (k k' : K) (v : V) :
    (m.insert k v).lookup k' = if k' = k then some v else m.lookup k' := by
  split_ifs with h
  · subst h; exact lookup_insert m
  · exact lookup_insert_of_ne m h

theorem lookup_erase_ite (m : Finmap fun _ : K => V) (k k' : K) :
    (m.erase k).lookup k' = if k' = k then none else m.lookup k' := by
  split_ifs with h
  · subst h; exact lookup_erase _ m
  · exact lookup_erase_ne h

/-- The stored value, or `d` where the key is absent. -/
def valueD (m : Finmap fun _ : K => V) (k : K) (d : V) : V := (m.lookup k).getD d

@[simp] theorem valueD_empty (k : K) (d : V) : valueD (∅ : Finmap fun _ : K => V) k d = d := by
  simp [valueD]

theorem valueD_insert (m : Finmap fun _ : K => V) (k k' : K) (v d : V) :
    (m.insert k v).valueD k' d = if k' = k then v else m.valueD k' d := by
  simp only [valueD, lookup_insert_ite]
  split_ifs <;> rfl

theorem valueD_erase (m : Finmap fun _ : K => V) (k k' : K) (d : V) :
    (m.erase k).valueD k' d = if k' = k then d else m.valueD k' d := by
  simp only [valueD, lookup_erase_ite]
  split_ifs <;> rfl

/-- The map with the same keys and the values `f k v`. -/
def mapWithKey {W : Type} (f : K → V → W) (m : Finmap fun _ : K => V) : Finmap fun _ : K => W where
  entries := m.entries.map fun e => ⟨e.1, f e.1 e.2⟩
  nodupKeys := by
    rw [← Multiset.nodup_keys]
    have hkeys : (m.entries.map fun e => (⟨e.1, f e.1 e.2⟩ : Σ _ : K, W)).keys = m.entries.keys := by
      simp [Multiset.keys, Multiset.map_map]
    rw [hkeys]
    exact Multiset.nodup_keys.mpr m.nodupKeys

/-! Sums over entries. -/
section Total
variable [AddCommMonoid M]

/-- The sum of `f k v` over the entries `k ↦ v`. -/
def total (f : K → V → M) (m : Finmap fun _ : K => V) : M :=
  ∑ k ∈ m.keys, (m.lookup k).elim 0 (f k)

@[simp] theorem total_empty (f : K → V → M) : total f ∅ = 0 := by simp [total]

theorem total_congr {f g : K → V → M} (m : Finmap fun _ : K => V)
    (h : ∀ k v, m.lookup k = some v → f k v = g k v) : total f m = total g m := by
  refine Finset.sum_congr rfl fun k _ => ?_
  cases hv : m.lookup k with
  | none => rfl
  | some v => exact h k v hv

theorem total_eq_zero {f : K → V → M} (m : Finmap fun _ : K => V)
    (h : ∀ k v, m.lookup k = some v → f k v = 0) : total f m = 0 := by
  refine Finset.sum_eq_zero fun k _ => ?_
  cases hv : m.lookup k with
  | none => rfl
  | some v => exact h k v hv

theorem total_erase_add (f : K → V → M) (m : Finmap fun _ : K => V) (k : K) :
    total f (m.erase k) + (m.lookup k).elim 0 (f k) = total f m := by
  have hrest : ∑ x ∈ m.keys.erase k, ((m.erase k).lookup x).elim 0 (f x) =
      ∑ x ∈ m.keys.erase k, (m.lookup x).elim 0 (f x) := by
    refine Finset.sum_congr rfl fun x hx => ?_
    rw [lookup_erase_ne (Finset.ne_of_mem_erase hx)]
  simp only [total, keys_erase, hrest]
  by_cases hk : k ∈ m.keys
  · exact Finset.sum_erase_add _ _ hk
  · have hn : m.lookup k = none := lookup_eq_none.mpr (fun h => hk (mem_keys.mpr h))
    simp [Finset.erase_eq_of_notMem hk, hn]

theorem total_insert_add (f : K → V → M) (m : Finmap fun _ : K => V) (k : K) (v : V) :
    total f (m.insert k v) = total f (m.erase k) + f k v := by
  have herase : (m.insert k v).erase k = m.erase k := by
    apply ext_lookup
    intro x
    rw [lookup_erase_ite, lookup_erase_ite, lookup_insert_ite]
    split_ifs <;> rfl
  rw [← total_erase_add f (m.insert k v) k, herase, lookup_insert]
  rfl

end Total

section Group
variable [AddCommGroup M]

theorem total_erase (f : K → V → M) (m : Finmap fun _ : K => V) (k : K) :
    total f (m.erase k) = total f m - (m.lookup k).elim 0 (f k) := by
  rw [← total_erase_add f m k, add_sub_cancel_right]

theorem total_insert (f : K → V → M) (m : Finmap fun _ : K => V) (k : K) (v : V) :
    total f (m.insert k v) = total f m - (m.lookup k).elim 0 (f k) + f k v := by
  rw [total_insert_add, total_erase]

/-- Two maps that differ at one key only. -/
theorem total_change {f f' : K → V → M} {m m' : Finmap fun _ : K => V} (k : K)
    (hm : ∀ k', k' ≠ k → m'.lookup k' = m.lookup k')
    (hf : ∀ k', k' ≠ k → ∀ v, f' k' v = f k' v) :
    total f' m' = total f m - (m.lookup k).elim 0 (f k) + (m'.lookup k).elim 0 (f' k) := by
  have herase : m'.erase k = m.erase k := by
    apply ext_lookup
    intro x
    rw [lookup_erase_ite, lookup_erase_ite]
    split_ifs with hx
    · rfl
    · exact hm x hx
  have hsame : total f' (m.erase k) = total f (m.erase k) := by
    refine total_congr _ fun k' v hk' => ?_
    rw [lookup_erase_ite] at hk'
    split_ifs at hk' with hne
    exact hf k' hne v
  have hafter := total_erase_add f' m' k
  rw [herase, hsame, total_erase] at hafter
  exact hafter.symm

theorem total_add (f g : K → V → M) (m : Finmap fun _ : K => V) :
    total (fun k v => f k v + g k v) m = total f m + total g m := by
  rw [total, total, total, ← Finset.sum_add_distrib]
  refine Finset.sum_congr rfl fun k _ => ?_
  cases m.lookup k <;> simp

end Group

/-! Maps read with a default that adds nothing to the sum. -/
section Default
variable {f : K → V → M} {d : V}

theorem total_eq_sum [AddCommMonoid M] (hd : ∀ k, f k d = 0) {m : Finmap fun _ : K => V}
    {t : Finset K} (ht : m.keys ⊆ t) : total f m = ∑ k ∈ t, f k (m.valueD k d) := by
  have hentry : ∀ k, (m.lookup k).elim 0 (f k) = f k (m.valueD k d) := fun k => by
    unfold valueD
    cases m.lookup k with
    | none => exact (hd k).symm
    | some v => rfl
  rw [total, ← Finset.sum_congr rfl fun k _ => hentry k]
  refine Finset.sum_subset ht fun k _ hk => ?_
  have hn : m.lookup k = none := lookup_eq_none.mpr fun h => hk (mem_keys.mpr h)
  rw [hn]
  rfl

theorem total_congr_valueD [AddCommMonoid M] (hd : ∀ k, f k d = 0) {m m' : Finmap fun _ : K => V}
    (h : ∀ k, f k (m.valueD k d) = f k (m'.valueD k d)) : total f m = total f m' := by
  rw [total_eq_sum hd (t := m.keys ∪ m'.keys) Finset.subset_union_left,
    total_eq_sum hd (t := m.keys ∪ m'.keys) Finset.subset_union_right]
  exact Finset.sum_congr rfl fun k _ => h k

theorem total_insert_valueD [AddCommGroup M] (hd : ∀ k, f k d = 0) (m : Finmap fun _ : K => V)
    (k : K) (v : V) : total f (m.insert k v) = total f m - f k (m.valueD k d) + f k v := by
  rw [total_insert]
  congr 2
  unfold valueD
  cases m.lookup k with
  | none => exact (hd k).symm
  | some v => rfl

end Default

theorem total_nonneg [AddCommMonoid M] [PartialOrder M] [IsOrderedAddMonoid M]
    {f : K → V → M} (m : Finmap fun _ : K => V)
    (h : ∀ k v, m.lookup k = some v → 0 ≤ f k v) : 0 ≤ total f m := by
  refine Finset.sum_nonneg fun k _ => ?_
  cases hv : m.lookup k with
  | none => exact le_rfl
  | some v => exact h k v hv

/-- One entry never exceeds the sum of non-negative entries. -/
theorem le_total [AddCommMonoid M] [PartialOrder M] [IsOrderedAddMonoid M]
    {f : K → V → M} (m : Finmap fun _ : K => V)
    (h : ∀ k v, m.lookup k = some v → 0 ≤ f k v) {k : K} {v : V} (hk : m.lookup k = some v) :
    f k v ≤ total f m := by
  have hmem : k ∈ m.keys := mem_keys.mpr (mem_of_lookup_eq_some hk)
  have hle := Finset.single_le_sum (f := fun x => (m.lookup x).elim 0 (f x))
    (fun x _ => by
      cases hv : m.lookup x with
      | none => exact le_rfl
      | some v => exact h x v hv) hmem
  simpa [total, hk] using hle

end Finmap
