import Mathlib.Data.List.DropRight
import Mathlib.Data.List.MinMax
import Mathlib.Data.List.Perm.Basic
import Mathlib.Data.List.Sort
import Mathlib.Order.Lattice

/-! Lists in parts, by the keys of their items or, where they are sorted, by bounds; lists mapped by
a computation that may fail. -/
namespace Lists

/-- A list falls apart by keys. -/
theorem perm_flatMap_filter {α β : Type} [DecidableEq β] (key : α → β) {keys : List β}
    (hnodup : keys.Nodup) {xs : List α} (hkeys : ∀ x ∈ xs, key x ∈ keys) :
    (keys.flatMap fun k => xs.filter fun x => key x = k).Perm xs := by
  induction keys generalizing xs with
  | nil =>
    rw [List.eq_nil_iff_forall_not_mem.mpr fun x hx => List.not_mem_nil (hkeys x hx)]
    exact .refl _
  | cons k keys ih =>
    obtain ⟨hk, hrest⟩ := List.nodup_cons.mp hnodup
    have hothers : (keys.flatMap fun k' => xs.filter fun x => key x = k') =
        keys.flatMap fun k' =>
          (xs.filter fun x => !decide (key x = k)).filter fun x => key x = k' := by
      refine List.flatMap_congr fun k' hk' => ?_
      rw [List.filter_filter]
      refine List.filter_congr fun x _ => ?_
      by_cases hx : key x = k'
      · have hne : k' ≠ k := fun heq => hk (heq ▸ hk')
        simp [hx, hne]
      · simp [hx]
    rw [List.flatMap_cons, hothers]
    refine (List.Perm.append_left _ (ih hrest fun x hx => ?_)).trans (List.filter_append_perm _ xs)
    obtain ⟨hx, hne⟩ := List.mem_filter.mp hx
    exact (List.mem_cons.mp (hkeys x hx)).resolve_left (by simpa using hne)
/-- To rename an item is to take it out and to add the new one. -/
theorem perm_rename {α : Type} [DecidableEq α] {xs : List α} {a : α} (hnodup : xs.Nodup)
    (ha : a ∈ xs) (b : α) :
    (xs.map fun x => if x = a then b else x).Perm ((xs.filter fun x => x ≠ a) ++ [b]) := by
  have hothers : ((xs.erase a).map fun x => if x = a then b else x) = xs.filter fun x => x ≠ a := by
    rw [hnodup.erase_eq_filter]
    have hsame : ∀ x ∈ xs.filter fun x => x != a, (if x = a then b else x) = x := by
      intro x hx
      exact if_neg (by simpa using (List.mem_filter.mp hx).2)
    rw [List.map_congr_left hsame, List.map_id']
    apply List.filter_congr
    intro x _
    by_cases hx : x = a
    · simp [hx]
    · simp [hx]
  have hfront := (List.perm_cons_erase ha).map fun x => if x = a then b else x
  rw [List.map_cons, if_pos rfl, hothers] at hfront
  exact hfront.trans (List.perm_append_singleton b _).symm

/-- The items with one of some keys fall apart by these. -/
theorem perm_flatMap_filter_mem {α β : Type} [DecidableEq β] (key : α → β) {keys : List β}
    (hnodup : keys.Nodup) (xs : List α) :
    (keys.flatMap fun k => xs.filter fun x => key x = k).Perm (xs.filter fun x => key x ∈ keys) := by
  have hsame : (keys.flatMap fun k => xs.filter fun x => key x = k) =
      keys.flatMap fun k => (xs.filter fun x => key x ∈ keys).filter fun x => key x = k := by
    refine List.flatMap_congr fun k hk => ?_
    rw [List.filter_filter]
    refine List.filter_congr fun x _ => ?_
    by_cases hx : key x = k
    · simp [hx, hk]
    · simp [hx]
  rw [hsame]
  apply perm_flatMap_filter key hnodup
  intro x hx
  simpa using (List.mem_filter.mp hx).2

section Sorted
variable {α : Type} [LinearOrder α] {xs before rest : List α} {a b : α}

/-- Up to a bound a sorted list starts with what is left of it. -/
theorem filter_le_eq_takeWhile (hsorted : xs.Pairwise (· < ·)) :
    xs.filter (· ≤ b) = xs.takeWhile (· ≤ b) := by
  induction xs with
  | nil => rfl
  | cons x xs ih =>
    obtain ⟨hx, hrest⟩ := List.pairwise_cons.mp hsorted
    by_cases hle : x ≤ b
    · simp [hle, ih hrest]
    · rw [List.filter_cons, List.takeWhile_cons, if_neg (by simpa using hle), decide_eq_false hle]
      apply List.filter_eq_nil_iff.mpr
      intro y hy
      have hlt := hx y hy
      simpa using lt_trans (not_le.mp hle) hlt

/-- The items of a sorted list from one of them up to a bound. -/
theorem filter_between (hsorted : (before ++ a :: rest).Pairwise (· < ·)) :
    ((before ++ a :: rest).filter fun x => a ≤ x ∧ x ≤ b) = (a :: rest).takeWhile (· ≤ b) := by
  obtain ⟨-, hright, hacross⟩ := List.pairwise_append.mp hsorted
  have hbefore : (before.filter fun x => a ≤ x ∧ x ≤ b) = [] := by
    apply List.filter_eq_nil_iff.mpr
    intro x hx
    have hlt := hacross x hx a List.mem_cons_self
    simp [not_le.mpr hlt]
  have hfrom : ((a :: rest).filter fun x => a ≤ x ∧ x ≤ b) = (a :: rest).filter (· ≤ b) := by
    apply List.filter_congr
    intro x hx
    have hle : a ≤ x := by
      rcases List.mem_cons.mp hx with rfl | hx
      · exact le_rfl
      · exact ((List.pairwise_cons.mp hright).1 x hx).le
    simp [hle]
  rw [List.filter_append, hbefore, List.nil_append, hfrom, filter_le_eq_takeWhile hright]

/-- The first item of a sorted list beyond a bound that is no less than one of the items. -/
theorem find_beyond (hsorted : (before ++ a :: rest).Pairwise (· < ·)) (hab : a ≤ b) :
    (before ++ a :: rest).find? (b < ·) = ((a :: rest).dropWhile (· ≤ b)).head? := by
  obtain ⟨-, -, hacross⟩ := List.pairwise_append.mp hsorted
  have hbefore : before.find? (b < ·) = none := by
    apply List.find?_eq_none.mpr
    intro x hx
    have hlt := hacross x hx a List.mem_cons_self
    simpa using (hlt.trans_le hab).le
  have hfirst : ∀ xs : List α, xs.find? (b < ·) = (xs.dropWhile (· ≤ b)).head? := by
    intro xs
    induction xs with
    | nil => rfl
    | cons x xs ih =>
      by_cases hle : x ≤ b
      · simp [hle, not_lt.mpr hle, ih]
      · simp [hle, not_le.mp hle]
  rw [List.find?_append, hbefore, Option.none_or, hfirst]

end Sorted

theorem filterMap_cons_append {α β : Type} (f : α → Option β) (x : α) (xs : List α) :
    (x :: xs).filterMap f = (f x).toList ++ xs.filterMap f := by
  rw [List.filterMap_cons]
  cases f x <;> rfl

theorem pairwise_insertionSort_key {α β : Type} [LinearOrder β] {r : α → α → Prop} [DecidableRel r]
    (key : α → β) (hr : ∀ a b, r a b ↔ key a ≤ key b) (xs : List α) :
    (xs.insertionSort r).Pairwise r := by
  have htotal : Std.Total r := ⟨fun a b => by
    rw [hr, hr]
    exact le_total (key a) (key b)⟩
  have htrans : IsTrans α r := ⟨fun a b c => by
    rw [hr, hr, hr]
    exact le_trans⟩
  exact List.pairwise_insertionSort _ xs

/-- The least item of a list comes before the others, in their order where they tie. -/
theorem first_of_argmin {α β : Type} [LinearOrder β] {f : α → β} {r : α → α → Prop} {xs : List α}
    {m : α} (hsorted : xs.Pairwise r) (h : xs.argmin f = some m) :
    m ∈ xs ∧ ∀ x ∈ xs, x ≠ m → f m < f x ∨ f m = f x ∧ r m x := by
  classical
  obtain ⟨hmem, hleast, hindex⟩ := List.argmin_eq_some_iff.mp h
  refine ⟨hmem, ?_⟩
  intro x hx hne
  rcases (hleast x hx).lt_or_eq with hlt | heq
  · exact Or.inl hlt
  · have hle := hindex x hx heq.ge
    have hdiff : xs.idxOf m ≠ xs.idxOf x := fun hsame => hne ((List.idxOf_inj hmem).mp hsame).symm
    have hlt : xs.idxOf m < xs.idxOf x := by omega
    have hrel := List.pairwise_iff_getElem.mp hsorted _ _ (List.idxOf_lt_length_of_mem hmem)
      (List.idxOf_lt_length_of_mem hx) hlt
    rw [List.getElem_idxOf, List.getElem_idxOf] at hrel
    exact Or.inr ⟨heq, hrel⟩

section Tail
variable {α : Type} {xs ys : List α} {n m : ℕ}

theorem rtake_of_length_le (h : xs.length ≤ n) : xs.rtake n = xs := by
  unfold List.rtake
  rw [Nat.sub_eq_zero_of_le h, List.drop_zero]

theorem length_rtake (xs : List α) (n : ℕ) : (xs.rtake n).length = min n xs.length := by
  unfold List.rtake
  rw [List.length_drop]
  omega

theorem rtake_rtake (h : m ≤ n) : (xs.rtake n).rtake m = xs.rtake m := by
  unfold List.rtake
  rw [List.drop_drop, List.length_drop]
  congr 1
  omega

/-- What is left out of the front of a list is not among its last items and more. -/
theorem rtake_rtake_append (xs ys : List α) (n : ℕ) :
    (xs.rtake n ++ ys).rtake n = (xs ++ ys).rtake n := by
  unfold List.rtake
  rw [List.length_append, List.length_append, List.length_drop, List.drop_append, List.drop_append,
    List.drop_drop, List.length_drop]
  congr 2
  · omega
  · omega

end Tail

section Fallible
variable {ε α β : Type} {f : α → Except ε β} {xs : List α}

/-- A list is mapped if each of its items is. -/
theorem mapM_eq_ok {ys : List β} :
    xs.mapM f = .ok ys ↔ List.Forall₂ (fun x y => f x = .ok y) xs ys := by
  induction xs generalizing ys with
  | nil =>
    rw [List.forall₂_nil_left_iff]
    exact ⟨fun h => (Except.ok.inj h).symm, fun h => congrArg Except.ok h.symm⟩
  | cons x xs ih =>
    rw [List.mapM_cons, List.forall₂_cons_left_iff]
    cases hx : f x with
    | error e =>
      constructor
      · intro h
        cases h
      · rintro ⟨y, ys, hy, -⟩
        cases hy
    | ok y =>
      cases hxs : xs.mapM f with
      | error e =>
        constructor
        · intro h
          cases h
        · rintro ⟨y', ys', -, hys, -⟩
          rw [ih.mpr hys] at hxs
          cases hxs
      | ok ys' =>
        constructor
        · intro h
          exact ⟨y, ys', rfl, ih.mp hxs, (Except.ok.inj h).symm⟩
        · rintro ⟨y', ys'', hy, hys, rfl⟩
          cases hy
          rw [ih.mpr hys] at hxs
          cases hxs
          rfl

theorem exists_mapM_eq_ok : (∃ ys, xs.mapM f = .ok ys) ↔ ∀ x ∈ xs, ∃ y, f x = .ok y := by
  constructor
  · rintro ⟨ys, h⟩ x hx
    obtain ⟨i, hi, rfl⟩ := List.mem_iff_getElem.mp hx
    have hall := mapM_eq_ok.mp h
    exact ⟨_, hall.get hi (hall.length_eq ▸ hi)⟩
  · intro h
    induction xs with
    | nil => exact ⟨[], rfl⟩
    | cons x xs ih =>
      obtain ⟨⟨y, hy⟩, hrest⟩ := List.forall_mem_cons.mp h
      obtain ⟨ys, hys⟩ := ih hrest
      exact ⟨y :: ys, mapM_eq_ok.mpr (.cons hy (mapM_eq_ok.mp hys))⟩

end Fallible

end Lists
