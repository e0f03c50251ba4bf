import Mathlib.Order.Basic
import Mathlib.Order.Defs.Unbundled
import Mathlib.Data.List.Basic
import Mathlib.Algebra.BigOperators.Group.List.Basic
import Mathlib.Tactic.Abel

/-! Ordered maps: the entries are listed in the key order, which the type carries. -/

/-- A map whose entries are iterated in the strict order `lt` of the keys. -/
structure OrderedMap (K V : Type) (lt : K → K → Prop) where
  entries : List (K × V)
  sorted : entries.Pairwise fun a b => lt a.1 b.1

namespace OrderedMap

variable {K V : Type} {lt : K → K → Prop}

@[ext] theorem ext {m m' : OrderedMap K V lt} (h : m.entries = m'.entries) : m = m' := by
  cases m; cases m'; cases h; rfl

instance : EmptyCollection (OrderedMap K V lt) := ⟨⟨[], List.Pairwise.nil⟩⟩

instance : Inhabited (OrderedMap K V lt) := ⟨∅⟩

@[simp] theorem entries_empty : (∅ : OrderedMap K V lt).entries = [] := rfl

instance [DecidableEq K] [DecidableEq V] : DecidableEq (OrderedMap K V lt) := fun m m' =>
  decidable_of_iff (m.entries = m'.entries) ⟨ext, fun h => h ▸ rfl⟩

/-- The value at a key. -/
def find? [DecidableEq K] (m : OrderedMap K V lt) (k : K) : Option V :=
  (m.entries.find? fun e => e.1 = k).map Prod.snd

/-- Erase a key. -/
def erase [DecidableEq K] (m : OrderedMap K V lt) (k : K) : OrderedMap K V lt :=
  ⟨m.entries.filter fun e => e.1 ≠ k, m.sorted.filter _⟩

/-- The first entry, in key order, that satisfies a test. -/
def findFirst (m : OrderedMap K V lt) (p : K → V → Bool) : Option (K × V) :=
  m.entries.find? fun e => p e.1 e.2

/-- The sum of `f k v` over the entries. -/
def total {M : Type} [AddMonoid M] (f : K → V → M) (m : OrderedMap K V lt) : M :=
  (m.entries.map fun e => f e.1 e.2).sum

section Insert
variable [DecidableEq K] [DecidableRel lt]

private def insertEntry (lt : K → K → Prop) [DecidableRel lt] (k : K) (v : V) :
    List (K × V) → List (K × V)
  | [] => [(k, v)]
  | e :: rest =>
    if e.1 = k then (k, v) :: rest
    else if lt k e.1 then (k, v) :: e :: rest
    else e :: insertEntry lt k v rest

private theorem insertEntry_mem {k : K} {v : V} {l : List (K × V)} {x : K × V}
    (h : x ∈ insertEntry lt k v l) : x = (k, v) ∨ x ∈ l := by
  induction l with
  | nil => simpa [insertEntry] using h
  | cons e rest ih =>
    simp only [insertEntry] at h
    split_ifs at h
    · rcases List.mem_cons.mp h with h | h
      · exact Or.inl h
      · exact Or.inr (List.mem_cons_of_mem _ h)
    · rcases List.mem_cons.mp h with h | h
      · exact Or.inl h
      · exact Or.inr h
    · rcases List.mem_cons.mp h with h | h
      · exact Or.inr (h ▸ List.mem_cons_self)
      · rcases ih h with h | h
        · exact Or.inl h
        · exact Or.inr (List.mem_cons_of_mem _ h)

variable [IsStrictTotalOrder K lt]

private theorem insertEntry_sorted (k : K) (v : V) {l : List (K × V)}
    (h : l.Pairwise fun a b => lt a.1 b.1) :
    (insertEntry lt k v l).Pairwise fun a b => lt a.1 b.1 := by
  induction l with
  | nil => simp [insertEntry]
  | cons e rest ih =>
    obtain ⟨hhead, htail⟩ := List.pairwise_cons.mp h
    simp only [insertEntry]
    split_ifs with hk hlt
    · subst hk
      exact List.pairwise_cons.mpr ⟨hhead, htail⟩
    · refine List.pairwise_cons.mpr ⟨fun x hx => ?_, h⟩
      rcases List.mem_cons.mp hx with rfl | hx
      · exact hlt
      · exact trans_of lt hlt (hhead x hx)
    · refine List.pairwise_cons.mpr ⟨fun x hx => ?_, ih htail⟩
      rcases insertEntry_mem hx with rfl | hx
      · exact (trichotomous_of lt e.1 k).resolve_right (by simp [hk, hlt])
      · exact hhead x hx

/-- Bind a key, replacing what it was bound to. -/
def insert (m : OrderedMap K V lt) (k : K) (v : V) : OrderedMap K V lt :=
  ⟨insertEntry lt k v m.entries, insertEntry_sorted k v m.sorted⟩

end Insert

/-! Lookup. -/
section Lookup
variable [DecidableEq K]

@[simp] theorem find?_empty (k : K) : (∅ : OrderedMap K V lt).find? k = none := rfl

private theorem find_map_of_mem [IsStrictTotalOrder K lt] {l : List (K × V)} {k : K} {v : V}
    (hs : l.Pairwise fun a b => lt a.1 b.1) (h : (k, v) ∈ l) :
    (l.find? fun e => e.1 = k).map Prod.snd = some v := by
  induction l with
  | nil => cases h
  | cons e rest ih =>
    obtain ⟨hhead, htail⟩ := List.pairwise_cons.mp hs
    rcases List.mem_cons.mp h with rfl | hmem
    · simp
    · have hne : e.1 ≠ k := fun hk => by
        have hlt := hhead (k, v) hmem
        rw [hk] at hlt
        exact irrefl_of lt k hlt
      simpa [List.find?_cons, hne] using ih htail hmem

/-- The entries are exactly the bindings. -/
theorem mem_entries_iff [IsStrictTotalOrder K lt] {m : OrderedMap K V lt} {k : K} {v : V} :
    (k, v) ∈ m.entries ↔ m.find? k = some v := by
  constructor
  · exact find_map_of_mem m.sorted
  · intro h
    obtain ⟨e, he, rfl⟩ := Option.map_eq_some_iff.mp h
    have hk : e.1 = k := by simpa using List.find?_some he
    exact hk ▸ List.mem_of_find?_eq_some he

theorem find?_erase (m : OrderedMap K V lt) (k k' : K) :
    (m.erase k).find? k' = if k' = k then none else m.find? k' := by
  obtain ⟨l, hs⟩ := m
  simp only [find?, erase]
  clear hs
  induction l with
  | nil => simp
  | cons e rest ih =>
    by_cases hk : e.1 = k <;> by_cases hk' : e.1 = k' <;> by_cases h : k' = k <;>
      simp_all

theorem find?_insert [DecidableRel lt] [IsStrictTotalOrder K lt] (m : OrderedMap K V lt)
    (k k' : K) (v : V) :
    (m.insert k v).find? k' = if k' = k then some v else m.find? k' := by
  obtain ⟨l, hs⟩ := m
  simp only [find?, insert]
  clear hs
  induction l with
  | nil => by_cases h : k' = k <;> simp [insertEntry, h, eq_comm]
  | cons e rest ih =>
    simp only [insertEntry]
    by_cases h : k' = k
    · subst h
      rw [if_pos rfl] at ih ⊢
      by_cases hk : e.1 = k'
      · simp [hk]
      · by_cases hlt : lt k' e.1
        · simp [hk, hlt]
        · simpa [List.find?_cons, hk, hlt] using ih
    · rw [if_neg h] at ih ⊢
      split_ifs with hk hlt
      · simp [hk, Ne.symm h]
      · simp [List.find?_cons, Ne.symm h]
      · by_cases hk' : e.1 = k'
        · simp [hk']
        · simpa [List.find?_cons, hk'] using ih

theorem ext_find? [IsStrictTotalOrder K lt] {m m' : OrderedMap K V lt}
    (h : ∀ k, m.find? k = m'.find? k) : m = m' := by
  have hmem : ∀ e, e ∈ m.entries ↔ e ∈ m'.entries := fun e => by
    rw [← Prod.mk.eta (p := e), mem_entries_iff, mem_entries_iff, h]
  have hirr : ∀ l : List (K × V), (l.Pairwise fun a b => lt a.1 b.1) → l.Nodup := fun l hl =>
    hl.imp fun hab => by rintro rfl; exact irrefl_of lt _ hab
  refine ext (List.Perm.eq_of_pairwise (fun a b _ _ hab hba => ?_) m.sorted m'.sorted
    ((List.perm_ext_iff_of_nodup (hirr _ m.sorted) (hirr _ m'.sorted)).mpr hmem))
  exact absurd (trans_of lt hab hba) (irrefl_of lt _)

theorem erase_insert [DecidableRel lt] [IsStrictTotalOrder K lt] (m : OrderedMap K V lt) (k : K)
    (v : V) : (m.insert k v).erase k = m.erase k := ext_find? fun x => by
  rw [find?_erase, find?_erase, find?_insert]
  split_ifs <;> rfl

private theorem insertEntry_perm [DecidableRel lt] {k : K} {v : V} {l : List (K × V)}
    (h : ∀ e ∈ l, e.1 ≠ k) : (insertEntry lt k v l).Perm ((k, v) :: l) := by
  induction l with
  | nil => exact List.Perm.refl _
  | cons e rest ih =>
    rw [insertEntry, if_neg (h e List.mem_cons_self)]
    split_ifs
    · exact List.Perm.refl _
    · have hrest := ih fun e he => h e (List.mem_cons_of_mem _ he)
      exact (hrest.cons e).trans (List.Perm.swap _ _ _)

theorem insert_perm [DecidableRel lt] [IsStrictTotalOrder K lt] {m : OrderedMap K V lt} {k : K}
    {v : V} (h : m.find? k = none) : (m.insert k v).entries.Perm ((k, v) :: m.entries) := by
  apply insertEntry_perm
  rintro ⟨k', v'⟩ he rfl
  rw [mem_entries_iff.mp he] at h
  cases h

/-- The first value is replaced in place. -/
theorem entries_insert_head [DecidableRel lt] [IsStrictTotalOrder K lt] {m : OrderedMap K V lt}
    {k : K} {v : V} {rest : List (K × V)} (h : m.entries = (k, v) :: rest) (v' : V) :
    (m.insert k v').entries = (k, v') :: rest := by
  show insertEntry lt k v' m.entries = _
  rw [h, insertEntry, if_pos rfl]

theorem entries_erase_head [IsStrictTotalOrder K lt] {m : OrderedMap K V lt} {k : K} {v : V}
    {rest : List (K × V)} (h : m.entries = (k, v) :: rest) : (m.erase k).entries = rest := by
  have hsorted := m.sorted
  rw [h] at hsorted
  show m.entries.filter _ = rest
  rw [h, List.filter_cons_of_neg (by simp), List.filter_eq_self]
  intro e he
  have hlt := (List.pairwise_cons.mp hsorted).1 e he
  rw [decide_eq_true_eq]
  rintro rfl
  exact irrefl_of lt _ hlt

/-- Rows that are inserted under keys of their own are the rows that are there. -/
theorem foldl_insert_perm [DecidableRel lt] [IsStrictTotalOrder K lt] (key : V → K) (rows : List V)
    (m : OrderedMap K V lt) (hfresh : ∀ row ∈ rows, m.find? (key row) = none)
    (hkeys : (rows.map key).Nodup) :
    ((rows.foldl (fun m row => m.insert (key row) row) m).entries.map Prod.snd).Perm
      (rows ++ m.entries.map Prod.snd) := by
  induction rows generalizing m with
  | nil => exact List.Perm.refl _
  | cons row rest ih =>
    obtain ⟨hne, hrest⟩ := List.nodup_cons.mp hkeys
    have hlater : ∀ row' ∈ rest, (m.insert (key row) row).find? (key row') = none := by
      intro row' hrow'
      have hkey : key row' ≠ key row := fun heq => hne (heq ▸ List.mem_map_of_mem hrow')
      rw [find?_insert, if_neg hkey]
      exact hfresh row' (List.mem_cons_of_mem _ hrow')
    have hinsert := (insert_perm (v := row) (hfresh row List.mem_cons_self)).map Prod.snd
    exact (ih _ hlater hrest).trans ((hinsert.append_left rest).trans List.perm_middle)

end Lookup

/-! Changes to every value. -/
section Update

/-- Change the values that pass a test. -/
def updateWhere (m : OrderedMap K V lt) (p : K → V → Bool) (f : V → V) : OrderedMap K V lt :=
  ⟨m.entries.map fun e => (e.1, if p e.1 e.2 then f e.2 else e.2),
    List.pairwise_map.mpr m.sorted⟩

theorem find?_updateWhere [DecidableEq K] (m : OrderedMap K V lt) (p : K → V → Bool) (f : V → V)
    (k : K) : (m.updateWhere p f).find? k = (m.find? k).map fun v => if p k v then f v else v := by
  obtain ⟨l, hs⟩ := m
  simp only [find?, updateWhere]
  clear hs
  induction l with
  | nil => rfl
  | cons e rest ih =>
    by_cases hk : e.1 = k
    · subst hk
      simp
    · simpa [List.find?_cons, hk] using ih

end Update

/-! The first entry that passes a test. -/
section First
variable [DecidableEq K] [IsStrictTotalOrder K lt] {m : OrderedMap K V lt} {p : K → V → Bool}

theorem findFirst_some {k : K} {v : V} (h : m.findFirst p = some (k, v)) :
    m.find? k = some v ∧ p k v = true ∧
      ∀ k' v', m.find? k' = some v' → p k' v' = true → k' = k ∨ lt k k' := by
  obtain ⟨hp, l₁, l₂, hl, hnone⟩ := List.find?_eq_some_iff_append.mp h
  refine ⟨mem_entries_iff.mp (List.mem_of_find?_eq_some h), hp, fun k' v' hk' hp' => ?_⟩
  have hmem : (k', v') ∈ l₁ ++ (k, v) :: l₂ := hl ▸ mem_entries_iff.mpr hk'
  have hs := m.sorted
  rw [hl] at hs
  rcases List.mem_append.mp hmem with hm | hm
  · exact absurd hp' (by simpa using hnone _ hm)
  · rcases List.mem_cons.mp hm with hm | hm
    · exact Or.inl (congrArg Prod.fst hm)
    · exact Or.inr ((List.pairwise_cons.mp (List.pairwise_append.mp hs).2.1).1 _ hm)

end First

/-! Sums. -/
section Total
variable {M : Type} [AddCommGroup M] [DecidableEq K]

theorem total_erase [IsStrictTotalOrder K lt] (f : K → V → M) (m : OrderedMap K V lt) (k : K) :
    total f (m.erase k) = total f m - (m.find? k).elim 0 (f k) := by
  obtain ⟨l, hs⟩ := m
  simp only [total, erase, find?]
  induction l with
  | nil => simp
  | cons e rest ih =>
    obtain ⟨hhead, htail⟩ := List.pairwise_cons.mp hs
    by_cases hk : e.1 = k
    · subst hk
      have hrest : rest.filter (fun x => decide (x.1 ≠ e.1)) = rest :=
        List.filter_eq_self.mpr fun x hx => by
          simpa using fun hxe : x.1 = e.1 => irrefl_of lt e.1 (hxe ▸ hhead x hx)
      rw [List.filter_cons_of_neg (by simp), hrest, List.find?_cons_of_pos (by simp)]
      simp
    · rw [List.filter_cons_of_pos (by simpa using hk), List.find?_cons_of_neg (by simpa using hk),
        List.map_cons, List.sum_cons, List.map_cons, List.sum_cons, ih htail]
      abel

theorem total_insert [DecidableRel lt] [IsStrictTotalOrder K lt] (f : K → V → M)
    (m : OrderedMap K V lt) (k : K) (v : V) :
    total f (m.insert k v) = total f m - (m.find? k).elim 0 (f k) + f k v := by
  have h := total_erase f (m.insert k v) k
  rw [erase_insert, total_erase, find?_insert, if_pos rfl] at h
  rw [h]
  simp

/-- A sum to which a single key contributes. -/
theorem total_single [IsStrictTotalOrder K lt] {f : K → V → M} {m : OrderedMap K V lt} {k : K}
    (h : ∀ k' v, m.find? k' = some v → k' ≠ k → f k' v = 0) :
    total f m = (m.find? k).elim 0 (f k) := by
  have hrest : total f (m.erase k) = 0 := by
    refine List.sum_eq_zero fun x hx => ?_
    obtain ⟨⟨k', v⟩, he, rfl⟩ := List.mem_map.mp hx
    obtain ⟨hmem, hne⟩ := List.mem_filter.mp he
    exact h k' v (mem_entries_iff.mp hmem) (of_decide_eq_true hne)
  have herase := total_erase f m k
  rw [hrest] at herase
  exact (sub_eq_zero.mp herase.symm)

end Total
end OrderedMap
