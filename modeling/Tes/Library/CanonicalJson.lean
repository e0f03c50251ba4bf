import Mathlib.Data.List.Sort
import Mathlib.Data.String.Basic
import Mathlib.Data.List.Forall2
import Tes.Library.Json

/-! JSON values up to the order of keys and up to keys that do not count: a relation that says so
and a normal form that decides it. -/
namespace Json

variable (dropped : List String)

/-- Equal but for dropped keys, at every depth. -/
inductive Same : Value → Value → Prop
  | null : Same .null .null
  | bool (b : Bool) : Same (.bool b) (.bool b)
  | int (n : ℤ) : Same (.int n) (.int n)
  | float (repr : String) : Same (.float repr) (.float repr)
  | str (s : String) : Same (.str s) (.str s)
  | list {xs ys : List Value} (h : List.Forall₂ Same xs ys) : Same (.list xs) (.list ys)
  | dict {xs ys : List (String × Value)}
      (h : ∀ key ∉ dropped, Option.Rel Same (xs.lookup key) (ys.lookup key)) :
      Same (.dict xs) (.dict ys)

/-- The items of a dict without dropped keys, in the order of the keys. -/
def sortedItems (items : List (String × Value)) : List (String × Value) :=
  (((Dict.keys items).filter (· ∉ dropped)).insertionSort (· ≤ ·)).map fun key =>
    (key, (items.lookup key).getD .null)

mutual

def canonical : Value → Value
  | .list items => .list (canonicalList items)
  | .dict items => .dict (sortedItems dropped (canonicalItems items))
  | value => value

def canonicalList : List Value → List Value
  | [] => []
  | item :: rest => canonical item :: canonicalList rest

def canonicalItems : List (String × Value) → List (String × Value)
  | [] => []
  | (key, value) :: rest => (key, canonical value) :: canonicalItems rest

end

/-- Induction over a value and the values in it. -/
theorem Value.induction {P : Value → Prop} (scalar : ∀ v : Value, (∀ items, v ≠ .list items) →
      (∀ items, v ≠ .dict items) → P v)
    (list : ∀ items, (∀ item ∈ items, P item) → P (.list items))
    (dict : ∀ items : List (String × Value), (∀ item ∈ items, P item.2) → P (.dict items))
    (v : Value) : P v :=
  Value.rec (motive_1 := P) (motive_2 := fun items => ∀ item ∈ items, P item)
    (motive_3 := fun items => ∀ item ∈ items, P item.2) (motive_4 := fun item => P item.2)
    (scalar _ (fun _ h => nomatch h) fun _ h => nomatch h)
    (fun _ => scalar _ (fun _ h => nomatch h) fun _ h => nomatch h)
    (fun _ => scalar _ (fun _ h => nomatch h) fun _ h => nomatch h)
    (fun _ => scalar _ (fun _ h => nomatch h) fun _ h => nomatch h)
    (fun _ => scalar _ (fun _ h => nomatch h) fun _ h => nomatch h)
    list dict (fun _ h => nomatch h) (fun _ _ hhead htail => List.forall_mem_cons.mpr ⟨hhead, htail⟩)
    (fun _ h => nomatch h) (fun _ _ hhead htail => List.forall_mem_cons.mpr ⟨hhead, htail⟩)
    (fun _ _ h => h) v

theorem canonicalList_eq (items : List Value) :
    canonicalList dropped items = items.map (canonical dropped) := by
  induction items with
  | nil => rfl
  | cons item rest ih => rw [canonicalList, ih, List.map_cons]

section Lookup
variable {items xs ys : List (String × Value)} {key : String}

theorem lookup_map_key {α : Type} (keys : List String) (f : String → α) :
    (keys.map fun key => (key, f key)).lookup key = if key ∈ keys then some (f key) else none := by
  induction keys with
  | nil => rfl
  | cons head rest ih =>
    rw [List.map_cons, List.lookup_cons, ih]
    by_cases hkey : key = head
    · subst hkey
      simp
    · rw [beq_false_of_ne hkey]
      simp [hkey]

theorem mem_keys_iff : key ∈ Dict.keys items ↔ items.lookup key ≠ none := by
  unfold Dict.keys
  rw [List.mem_dedup]
  induction items with
  | nil => simp
  | cons item rest ih =>
    rw [List.map_cons, List.mem_cons, ih, List.lookup_cons]
    by_cases hkey : key = item.1
    · simp [hkey]
    · rw [beq_false_of_ne hkey]
      simp [hkey]

theorem mem_sorted_keys : key ∈ ((Dict.keys items).filter (· ∉ dropped)).insertionSort (· ≤ ·) ↔
    items.lookup key ≠ none ∧ key ∉ dropped := by
  rw [List.mem_insertionSort, List.mem_filter, mem_keys_iff, decide_eq_true_eq]

theorem lookup_sortedItems (hkey : key ∉ dropped) :
    (sortedItems dropped items).lookup key = items.lookup key := by
  unfold sortedItems
  rw [lookup_map_key]
  cases hlookup : items.lookup key with
  | none => exact if_neg fun hmem => ((mem_sorted_keys dropped).mp hmem).1 hlookup
  | some value =>
    refine (if_pos ((mem_sorted_keys dropped).mpr ⟨?_, hkey⟩)).trans rfl
    rw [hlookup]
    exact Option.some_ne_none value

/-- The items that count settle the sorted ones. -/
theorem sortedItems_eq_iff : sortedItems dropped xs = sortedItems dropped ys ↔
    ∀ key ∉ dropped, xs.lookup key = ys.lookup key := by
  constructor
  · intro h key hkey
    rw [← lookup_sortedItems dropped hkey, h, lookup_sortedItems dropped hkey]
  · intro h
    have hnodup : ∀ items : List (String × Value),
        ((Dict.keys items).filter (· ∉ dropped)).Nodup := fun items =>
      (List.nodup_dedup _).filter _
    have hkeys : ((Dict.keys xs).filter (· ∉ dropped)).insertionSort (· ≤ ·) =
        ((Dict.keys ys).filter (· ∉ dropped)).insertionSort (· ≤ ·) := by
      refine List.Perm.eq_of_pairwise' (List.pairwise_insertionSort (· ≤ ·) _)
        (List.pairwise_insertionSort (· ≤ ·) _) ?_
      refine (List.perm_insertionSort _ _).trans (.trans ?_ (List.perm_insertionSort _ _).symm)
      refine (List.perm_ext_iff_of_nodup (hnodup xs) (hnodup ys)).mpr fun key => ?_
      rw [List.mem_filter, List.mem_filter, mem_keys_iff, mem_keys_iff]
      refine and_congr_left fun hkey => ?_
      rw [h key (of_decide_eq_true hkey)]
    unfold sortedItems
    rw [hkeys]
    refine List.map_congr_left fun key hkey => ?_
    rw [h key ((mem_sorted_keys dropped).mp hkey).2]

theorem lookup_canonicalItems :
    (canonicalItems dropped items).lookup key = (items.lookup key).map (canonical dropped) := by
  induction items with
  | nil => rfl
  | cons item rest ih =>
    rw [canonicalItems, List.lookup_cons, List.lookup_cons, ih]
    cases key == item.1 <;> rfl

end Lookup

section NormalForm
variable {dropped}

theorem canonical_list_eq_iff {xs ys : List Value}
    (ih : ∀ x ∈ xs, ∀ y, canonical dropped x = canonical dropped y ↔ Same dropped x y) :
    canonicalList dropped xs = canonicalList dropped ys ↔ List.Forall₂ (Same dropped) xs ys := by
  induction xs generalizing ys with
  | nil =>
    cases ys with
    | nil => simp
    | cons y ys => simp [canonicalList]
  | cons x xs ihlist =>
    obtain ⟨hx, hxs⟩ := List.forall_mem_cons.mp ih
    cases ys with
    | nil => simp [canonicalList]
    | cons y ys =>
      rw [canonicalList, canonicalList, List.cons.injEq, List.forall₂_cons, hx y, ihlist hxs]

theorem canonical_dict_eq_iff {xs ys : List (String × Value)}
    (ih : ∀ x ∈ xs, ∀ y, canonical dropped x.2 = canonical dropped y ↔ Same dropped x.2 y) :
    sortedItems dropped (canonicalItems dropped xs) = sortedItems dropped (canonicalItems dropped ys) ↔
      ∀ key ∉ dropped, Option.Rel (Same dropped) (xs.lookup key) (ys.lookup key) := by
  rw [sortedItems_eq_iff]
  refine forall₂_congr fun key _ => ?_
  rw [lookup_canonicalItems, lookup_canonicalItems]
  cases hx : xs.lookup key with
  | none =>
    cases ys.lookup key with
    | none => exact iff_of_true rfl .none
    | some y => exact iff_of_false (fun h => nomatch h) fun h => nomatch h
  | some x =>
    have hmem : (key, x) ∈ xs := by
      obtain ⟨l₁, l₂, rfl, -⟩ := List.lookup_eq_some_iff.mp hx
      exact List.mem_append_right l₁ List.mem_cons_self
    cases ys.lookup key with
    | none => exact iff_of_false (fun h => nomatch h) fun h => nomatch h
    | some y =>
      rw [Option.map_some, Option.map_some, Option.some.injEq, ih (key, x) hmem y, Option.rel_some_some]

/-- The normal form decides which values are the same. -/
theorem canonical_eq_iff (v w : Value) :
    canonical dropped v = canonical dropped w ↔ Same dropped v w := by
  induction v using Value.induction generalizing w with
  | scalar v hlist hdict =>
    constructor
    · intro h
      cases v with
      | list items => exact absurd rfl (hlist items)
      | dict items => exact absurd rfl (hdict items)
      | _ => cases w <;> first | (cases h; constructor) | cases h
    · intro h
      cases h with
      | list _ => exact absurd rfl (hlist _)
      | dict _ => exact absurd rfl (hdict _)
      | _ => rfl
  | list xs ih =>
    cases w with
    | list ys =>
      rw [canonical, canonical, Value.list.injEq, canonical_list_eq_iff ih]
      exact ⟨.list, fun h => by cases h; assumption⟩
    | _ => exact iff_of_false (fun h => nomatch h) fun h => nomatch h
  | dict xs ih =>
    cases w with
    | dict ys =>
      rw [canonical, canonical, Value.dict.injEq, canonical_dict_eq_iff ih]
      exact ⟨.dict, fun h => by cases h; assumption⟩
    | _ => exact iff_of_false (fun h => nomatch h) fun h => nomatch h

theorem same_list_iff {xs ys : List Value} :
    Same dropped (.list xs) (.list ys) ↔ List.Forall₂ (Same dropped) xs ys :=
  ⟨fun h => by cases h; assumption, .list⟩

theorem same_dict_iff {xs ys : List (String × Value)} : Same dropped (.dict xs) (.dict ys) ↔
    ∀ key ∉ dropped, Option.Rel (Same dropped) (xs.lookup key) (ys.lookup key) :=
  ⟨fun h => by cases h; assumption, .dict⟩

theorem same_refl (v : Value) : Same dropped v v := (canonical_eq_iff v v).mp rfl

/-- A value is the same as its normal form. -/
theorem same_canonical (v : Value) : Same dropped (canonical dropped v) v := by
  induction v using Value.induction with
  | scalar v hlist hdict =>
    cases v with
    | list items => exact absurd rfl (hlist items)
    | dict items => exact absurd rfl (hdict items)
    | _ => exact same_refl _
  | list items ih =>
    rw [canonical, same_list_iff, canonicalList_eq, List.forall₂_map_left_iff, List.forall₂_same]
    exact ih
  | dict items ih =>
    rw [canonical, same_dict_iff]
    intro key hkey
    rw [lookup_sortedItems dropped hkey, lookup_canonicalItems]
    cases hlookup : items.lookup key with
    | none => exact .none
    | some value =>
      obtain ⟨l₁, l₂, rfl, -⟩ := List.lookup_eq_some_iff.mp hlookup
      exact .some (ih (key, value) (List.mem_append_right l₁ List.mem_cons_self))

theorem same_canonical_iff {v w : Value} :
    Same dropped (canonical dropped v) (canonical dropped w) ↔ Same dropped v w := by
  rw [← canonical_eq_iff, ← canonical_eq_iff, (canonical_eq_iff _ v).mpr (same_canonical v),
    (canonical_eq_iff _ w).mpr (same_canonical w)]

/-- Dicts of the same items in one order are the same. -/
theorem same_dict_of_items {xs ys : List (String × Value)}
    (h : List.Forall₂ (fun x y => x.1 = y.1 ∧ Same dropped x.2 y.2) xs ys) :
    Same dropped (.dict xs) (.dict ys) := by
  refine .dict fun key _ => ?_
  induction h with
  | nil => exact .none
  | @cons x y xs ys hitem _ ih =>
    rw [List.lookup_cons, List.lookup_cons, hitem.1]
    cases key == y.1 with
    | true => exact .some hitem.2
    | false => exact ih

end NormalForm

end Json
