import Mathlib.Data.List.Count
import Tes.Library.FiniteMap
import Tes.Library.Transition

/-! A registry of items. Each comes in under the next number, is filed under its group and leaves for
good: it is dropped, or released under a number of its own. -/

inductive RegistryChange
  | added
  | dropped
  | released (number : ℕ)
  deriving DecidableEq, Repr

/-- The items by number, the numbers by group, what has happened and the next number. -/
structure Registry (α β : Type) where
  items : Finmap fun _ : ℕ => α
  filed : Finmap fun _ : β => List ℕ
  history : List (ℕ × RegistryChange)
  next : ℕ

namespace Registry

/-- The numbers that have come in, in order. -/
def addedIn (history : List (ℕ × RegistryChange)) : List ℕ :=
  history.filterMap fun change =>
    match change.2 with
    | .added => some change.1
    | _ => none

def droppedIn (history : List (ℕ × RegistryChange)) : List ℕ :=
  history.filterMap fun change =>
    match change.2 with
    | .dropped => some change.1
    | _ => none

/-- The numbers that have been released, with those they were released under. -/
def releasedIn (history : List (ℕ × RegistryChange)) : List (ℕ × ℕ) :=
  history.filterMap fun change =>
    match change.2 with
    | .released number => some (change.1, number)
    | _ => none

section History
variable {history more : List (ℕ × RegistryChange)} {id number : ℕ}

@[simp] theorem addedIn_append : addedIn (history ++ more) = addedIn history ++ addedIn more :=
  List.filterMap_append

@[simp] theorem droppedIn_append :
    droppedIn (history ++ more) = droppedIn history ++ droppedIn more :=
  List.filterMap_append

@[simp] theorem releasedIn_append :
    releasedIn (history ++ more) = releasedIn history ++ releasedIn more :=
  List.filterMap_append

@[simp] theorem in_added : addedIn [(id, .added)] = [id] ∧ droppedIn [(id, .added)] = [] ∧
    releasedIn [(id, .added)] = [] := ⟨rfl, rfl, rfl⟩

@[simp] theorem in_dropped : addedIn [(id, .dropped)] = [] ∧ droppedIn [(id, .dropped)] = [id] ∧
    releasedIn [(id, .dropped)] = [] := ⟨rfl, rfl, rfl⟩

@[simp] theorem in_released : addedIn [(id, .released number)] = [] ∧
    droppedIn [(id, .released number)] = [] ∧
    releasedIn [(id, .released number)] = [(id, number)] := ⟨rfl, rfl, rfl⟩

end History

variable {α β : Type}

/-- Every number that came in is an item, dropped or released, once and one of these. -/
structure Accounted (r : Registry α β) : Prop where
  below : ∀ change ∈ r.history, change.1 < r.next
  counts : ∀ id, (addedIn r.history).count id = (if (r.items.lookup id).isSome then 1 else 0) +
    (droppedIn r.history).count id + ((releasedIn r.history).map Prod.fst).count id
  once : ∀ id, (addedIn r.history).count id ≤ 1

section Files
variable [DecidableEq β]

/-- The numbers filed under a group. -/
def under (r : Registry α β) (group : β) : List ℕ := r.filed.valueD group []

/-- File the next number under a group. -/
def file (r : Registry α β) (group : β) : Finmap fun _ : β => List ℕ :=
  r.filed.insert group (r.under group ++ [r.next])

/-- Take a number out of the file of a group. -/
def unfile (r : Registry α β) (group : β) (id : ℕ) : Finmap fun _ : β => List ℕ :=
  r.filed.insert group ((r.under group).filter fun other => other ≠ id)

/-- What can happen to a registry. -/
inductive Step (groupOf : α → β) :
    Registry α β → List (ℕ × RegistryChange) → Registry α β → Prop
  | skip (r : Registry α β) : Step groupOf r [] { r with next := r.next + 1 }
  | add (r : Registry α β) (item : α) : Step groupOf r [(r.next, .added)]
      ⟨r.items.insert r.next item, r.file (groupOf item), r.history ++ [(r.next, .added)],
        r.next + 1⟩
  | update {r : Registry α β} {id : ℕ} {item item' : α} : r.items.lookup id = some item →
      groupOf item' = groupOf item → Step groupOf r [] { r with items := r.items.insert id item' }
  | drop {r : Registry α β} {id : ℕ} {item : α} : r.items.lookup id = some item →
      Step groupOf r [(id, .dropped)]
        ⟨r.items.erase id, r.unfile (groupOf item) id, r.history ++ [(id, .dropped)], r.next⟩
  | release {r : Registry α β} {id : ℕ} {item : α} : r.items.lookup id = some item →
      Step groupOf r [(id, .released r.next)]
        ⟨r.items.erase id, r.unfile (groupOf item) id, r.history ++ [(id, .released r.next)],
          r.next + 1⟩

/-- Every number filed is that of an item of the group, and filed once. -/
structure Filed (groupOf : α → β) (r : Registry α β) : Prop where
  nodup : ∀ group, (r.under group).Nodup
  iff : ∀ group id, id ∈ r.under group ↔ ∃ item, r.items.lookup id = some item ∧ groupOf item = group

end Files

/-! What has happened to the numbers. -/
section Accounts
variable {r : Registry α β} {history : List (ℕ × RegistryChange)} {id number : ℕ}

theorem mem_addedIn : id ∈ addedIn history ↔ (id, .added) ∈ history := by
  rw [addedIn, List.mem_filterMap]
  constructor
  · rintro ⟨⟨other, change⟩, hmem, heq⟩
    cases change with
    | added => cases heq; exact hmem
    | dropped => cases heq
    | released number => cases heq
  · exact fun h => ⟨_, h, rfl⟩

/-- An item has come in. -/
theorem Accounted.mem_addedIn (h : r.Accounted) {item : α} (hitem : r.items.lookup id = some item) :
    id ∈ addedIn r.history := by
  have hcount := h.counts id
  rw [hitem, Option.isSome_some, if_pos rfl] at hcount
  exact List.count_pos_iff.mp (by omega)

/-- Its number has been passed. -/
theorem Accounted.lt_next (h : r.Accounted) {item : α} (hitem : r.items.lookup id = some item) :
    id < r.next :=
  h.below _ (Registry.mem_addedIn.mp (h.mem_addedIn hitem))

theorem Accounted.lookup_next (h : r.Accounted) : r.items.lookup r.next = none := by
  cases hitem : r.items.lookup r.next with
  | none => rfl
  | some item => exact absurd (h.lt_next hitem) (lt_irrefl _)

/-- The next number has not come in. -/
theorem Accounted.count_next (h : r.Accounted) : (addedIn r.history).count r.next = 0 := by
  rw [List.count_eq_zero]
  intro hmem
  exact lt_irrefl _ (h.below _ (Registry.mem_addedIn.mp hmem))

/-- A number that came in is an item, or dropped, or released, and no two of these. -/
theorem Accounted.one_of_three (h : r.Accounted) (hadded : id ∈ addedIn r.history) :
    ((r.items.lookup id).isSome ∧ id ∉ droppedIn r.history ∧
        id ∉ (releasedIn r.history).map Prod.fst) ∨
      (r.items.lookup id = none ∧ id ∈ droppedIn r.history ∧
        id ∉ (releasedIn r.history).map Prod.fst) ∨
      (r.items.lookup id = none ∧ id ∉ droppedIn r.history ∧
        id ∈ (releasedIn r.history).map Prod.fst) := by
  have hcount := h.counts id
  have honce := h.once id
  have hpos := List.count_pos_iff.mpr hadded
  simp only [← List.count_pos_iff (l := droppedIn r.history),
    ← List.count_pos_iff (l := (releasedIn r.history).map Prod.fst)]
  cases hitem : r.items.lookup id with
  | some item =>
    rw [hitem, Option.isSome_some, if_pos rfl] at hcount
    exact .inl ⟨rfl, by omega, by omega⟩
  | none =>
    rw [hitem, Option.isSome_none, if_neg Bool.false_ne_true] at hcount
    rcases Nat.eq_zero_or_pos ((droppedIn r.history).count id) with hzero | hdropped
    · exact .inr (.inr ⟨rfl, by omega, by omega⟩)
    · exact .inr (.inl ⟨rfl, by omega, by omega⟩)

/-- No number is released twice. -/
theorem Accounted.nodup_released (h : r.Accounted) :
    ((releasedIn r.history).map Prod.fst).Nodup := by
  rw [List.nodup_iff_count_le_one]
  intro id
  have hcount := h.counts id
  have honce := h.once id
  omega

end Accounts

section Invariants
variable [DecidableEq β] {groupOf : α → β} {r r' : Registry α β}
  {changes : List (ℕ × RegistryChange)} {id : ℕ}

/-- A step adds its changes to the history. -/
theorem Step.history (h : Step groupOf r changes r') : r'.history = r.history ++ changes := by
  cases h with
  | skip => exact (List.append_nil _).symm
  | update => exact (List.append_nil _).symm
  | add => rfl
  | drop => rfl
  | release => rfl

theorem Step.le_next (h : Step groupOf r changes r') : r.next ≤ r'.next := by
  cases h with
  | skip => exact Nat.le_succ _
  | add => exact Nat.le_succ _
  | update => exact le_rfl
  | drop => exact le_rfl
  | release => exact Nat.le_succ _

theorem count_single (id other : ℕ) : [other].count id = if id = other then 1 else 0 := by
  rw [List.count_singleton]
  exact if_congr (by rw [beq_iff_eq, eq_comm]) rfl rfl

theorem Step.accounted (h : Step groupOf r changes r') (hr : r.Accounted) : r'.Accounted := by
  have hlater : ∀ change ∈ r.history, change.1 < r'.next :=
    fun change hchange => (hr.below change hchange).trans_le h.le_next
  have hbelow : (∀ change ∈ changes, change.1 < r'.next) → ∀ change ∈ r'.history,
      change.1 < r'.next := by
    intro hnew change hchange
    rw [h.history] at hchange
    exact (List.mem_append.mp hchange).elim (hlater change) (hnew change)
  cases h with
  | skip => exact ⟨hbelow (by simp), hr.counts, hr.once⟩
  | add item =>
    have hnew := hr.count_next
    refine ⟨hbelow (by simp), ?_, ?_⟩
    · intro id
      have hcount := hr.counts id
      simp only [addedIn_append, droppedIn_append, releasedIn_append, in_added, List.append_nil,
        List.count_append, Finmap.lookup_insert_ite, count_single]
      by_cases heq : id = r.next
      · subst heq
        rw [hr.lookup_next] at hcount
        simp only [Option.isSome_none, Bool.false_eq_true, if_false, if_true,
          Option.isSome_some] at hcount ⊢
        omega
      · rw [if_neg heq, if_neg heq, hcount, add_zero]
    · intro id
      have honce := hr.once id
      simp only [addedIn_append, in_added, List.count_append, count_single]
      by_cases heq : id = r.next
      · subst heq
        rw [if_pos rfl]
        omega
      · rw [if_neg heq]
        exact honce
  | @update id' item item' hitem hgroup =>
    refine ⟨hbelow (by simp), ?_, hr.once⟩
    intro id
    have hcount := hr.counts id
    rw [Finmap.lookup_insert_ite]
    by_cases heq : id = id'
    · subst heq
      rw [hitem] at hcount
      rw [if_pos rfl]
      exact hcount
    · rw [if_neg heq]
      exact hcount
  | @drop id' item hitem =>
    refine ⟨hbelow (by simpa using hr.lt_next hitem), ?_, ?_⟩
    · intro id
      have hcount := hr.counts id
      simp only [addedIn_append, droppedIn_append, releasedIn_append, in_dropped, List.append_nil,
        List.count_append, Finmap.lookup_erase_ite, count_single]
      by_cases heq : id = id'
      · subst heq
        rw [hitem] at hcount
        simp only [Option.isSome_none, Bool.false_eq_true, if_false, if_true,
          Option.isSome_some] at hcount ⊢
        omega
      · rw [if_neg heq, if_neg heq, hcount, add_zero]
    · simpa using hr.once
  | @release id' item hitem =>
    have hlt := hr.lt_next hitem
    refine ⟨hbelow (by simpa using hlt.trans (Nat.lt_succ_self _)), ?_, ?_⟩
    · intro id
      have hcount := hr.counts id
      simp only [addedIn_append, droppedIn_append, releasedIn_append, in_released, List.append_nil,
        List.map_append, List.map_cons, List.map_nil, List.count_append, Finmap.lookup_erase_ite,
        count_single]
      by_cases heq : id = id'
      · subst heq
        rw [hitem] at hcount
        simp only [Option.isSome_none, Bool.false_eq_true, if_false, if_true,
          Option.isSome_some] at hcount ⊢
        omega
      · rw [if_neg heq, if_neg heq, hcount, add_zero]
    · simpa using hr.once

/-- What is filed after an item has left. -/
theorem Filed.left (hf : r.Filed groupOf) {item : α} (hitem : r.items.lookup id = some item)
    {history : List (ℕ × RegistryChange)} {next : ℕ} :
    Filed groupOf ⟨r.items.erase id, r.unfile (groupOf item) id, history, next⟩ := by
  have hunder : ∀ group, under ⟨r.items.erase id, r.unfile (groupOf item) id, history, next⟩ group =
      if group = groupOf item then (r.under (groupOf item)).filter fun other => other ≠ id
      else r.under group :=
    fun group => Finmap.valueD_insert _ _ _ _ _
  constructor
  · intro group
    rw [hunder]
    split_ifs
    · exact (hf.nodup _).filter _
    · exact hf.nodup group
  · intro group other
    rw [hunder, Finmap.lookup_erase_ite]
    by_cases hgroup : group = groupOf item
    · rw [if_pos hgroup, List.mem_filter, hf.iff, hgroup]
      by_cases heq : other = id
      · simp [heq]
      · simp [heq]
    · rw [if_neg hgroup, hf.iff]
      by_cases heq : other = id
      · subst heq
        rw [hitem, if_pos rfl]
        refine iff_of_false ?_ ?_
        · rintro ⟨item', hitem', hgroup'⟩
          cases hitem'
          exact hgroup hgroup'.symm
        · rintro ⟨item', hitem', -⟩
          cases hitem'
      · rw [if_neg heq]

theorem Step.filed (h : Step groupOf r changes r') (hr : r.Accounted) (hf : r.Filed groupOf) :
    r'.Filed groupOf := by
  cases h with
  | skip => exact ⟨hf.nodup, hf.iff⟩
  | add item =>
    have hunder : ∀ group, under ⟨r.items.insert r.next item, r.file (groupOf item),
        r.history ++ [(r.next, .added)], r.next + 1⟩ group =
        if group = groupOf item then r.under (groupOf item) ++ [r.next] else r.under group :=
      fun group => Finmap.valueD_insert _ _ _ _ _
    have hfresh : ∀ group, r.next ∉ r.under group := by
      intro group hmem
      obtain ⟨item', hitem', -⟩ := (hf.iff group r.next).mp hmem
      rw [hr.lookup_next] at hitem'
      cases hitem'
    constructor
    · intro group
      rw [hunder]
      split_ifs
      · rw [← List.concat_eq_append]
        exact (hf.nodup _).concat (hfresh _)
      · exact hf.nodup group
    · intro group other
      rw [hunder, Finmap.lookup_insert_ite]
      by_cases heq : other = r.next
      · subst heq
        rw [if_pos rfl]
        by_cases hgroup : group = groupOf item
        · simp [hgroup]
        · rw [if_neg hgroup]
          refine iff_of_false (hfresh group) ?_
          rintro ⟨item', hitem', hgroup'⟩
          cases hitem'
          exact hgroup hgroup'.symm
      · rw [if_neg heq, ← hf.iff]
        by_cases hgroup : group = groupOf item
        · simp [hgroup, heq]
        · rw [if_neg hgroup]
  | @update id' item item' hitem hgroup =>
    refine ⟨hf.nodup, ?_⟩
    intro group other
    rw [Finmap.lookup_insert_ite]
    by_cases heq : other = id'
    · subst heq
      rw [if_pos rfl]
      refine (hf.iff group other).trans ?_
      rw [hitem]
      constructor
      · rintro ⟨_, heq, hitem⟩
        cases heq
        exact ⟨item', rfl, hgroup.trans hitem⟩
      · rintro ⟨_, heq, hitem⟩
        cases heq
        exact ⟨item, rfl, hgroup.symm.trans hitem⟩
    · rw [if_neg heq]
      exact hf.iff group other
  | drop hitem => exact hf.left hitem
  | release hitem => exact hf.left hitem

/-- Both invariants hold all along a path. -/
theorem path_sound (h : Transition.Path (Step groupOf) r changes r') (hr : r.Accounted)
    (hf : r.Filed groupOf) : r'.Accounted ∧ r'.Filed groupOf :=
  h.invariant (I := fun r => r.Accounted ∧ r.Filed groupOf)
    (fun hI hstep => ⟨hstep.accounted hI.1, hstep.filed hI.1 hI.2⟩) ⟨hr, hf⟩

theorem path_le_next (h : Transition.Path (Step groupOf) r changes r') : r.next ≤ r'.next := by
  induction h with
  | refl => exact le_rfl
  | step hstep _ ih => exact hstep.le_next.trans ih

theorem path_history (h : Transition.Path (Step groupOf) r changes r') :
    r'.history = r.history ++ changes := by
  induction h with
  | refl => exact (List.append_nil _).symm
  | step hstep _ ih => rw [ih, hstep.history, List.append_assoc]

end Invariants

end Registry
