import Mathlib.Data.List.Forall2
import Tes.Library.CanonicalJson

/-! Python's `==` on JSON values: scalars of different types may be equal, and the order of the keys
of a dict does not count. -/
namespace Json

section Equal
variable {α : Type} [DecidableEq α] (scalar : Value → Option α)

mutual

/-- Equality, where `scalar` is what a value other than a list or a dict is compared by. -/
def equal : Value → Value → Bool
  | .list xs, .list ys => equalList xs ys
  | .dict xs, .dict ys =>
    includes [] xs ys && decide (∀ key ∈ Dict.keys ys, key ∈ Dict.keys xs)
  | v, w => (scalar v).isSome && decide (scalar v = scalar w)

def equalList : List Value → List Value → Bool
  | [], [] => true
  | x :: xs, y :: ys => equal x y && equalList xs ys
  | _, _ => false

/-- Whether the items other than those at `seen` keys are items of a second dict. -/
def includes (seen : List String) : List (String × Value) → List (String × Value) → Bool
  | [], _ => true
  | (key, value) :: rest, ys =>
    (decide (key ∈ seen) || (ys.lookup key).any (equal value ·)) && includes (key :: seen) rest ys

end

variable {scalar}

theorem equalList_iff {xs ys : List Value} :
    equalList scalar xs ys = true ↔ List.Forall₂ (fun x y => equal scalar x y = true) xs ys := by
  induction xs generalizing ys with
  | nil =>
    cases ys with
    | nil => simp [equalList]
    | cons y ys => simp [equalList]
  | cons x xs ih =>
    cases ys with
    | nil => simp [equalList]
    | cons y ys => rw [equalList, Bool.and_eq_true, ih, List.forall₂_cons]

theorem includes_iff {seen : List String} {xs ys : List (String × Value)} :
    includes scalar seen xs ys = true ↔ ∀ key ∉ seen, ∀ v, xs.lookup key = some v →
      ∃ w, ys.lookup key = some w ∧ equal scalar v w = true := by
  induction xs generalizing seen with
  | nil => simp [includes]
  | cons item rest ih =>
    obtain ⟨first, value⟩ := item
    rw [includes, Bool.and_eq_true, ih, Bool.or_eq_true, decide_eq_true_eq, Option.any_eq_true]
    constructor
    · rintro ⟨hfirst, hrest⟩ key hkey v hv
      by_cases heq : key = first
      · subst heq
        rw [List.lookup_cons_self] at hv
        rw [← Option.some.inj hv]
        exact hfirst.resolve_left hkey
      · rw [List.lookup_cons, beq_false_of_ne heq] at hv
        exact hrest key (by simp [heq, hkey]) v hv
    · intro h
      constructor
      · by_cases hseen : first ∈ seen
        · exact Or.inl hseen
        · exact Or.inr (h first hseen value List.lookup_cons_self)
      · intro key hkey v hv
        obtain ⟨hne, hseen⟩ := not_or.mp (List.mem_cons.not.mp hkey)
        refine h key hseen v ?_
        rw [List.lookup_cons, beq_false_of_ne hne]
        exact hv

theorem equal_dict_iff {xs ys : List (String × Value)} :
    equal scalar (.dict xs) (.dict ys) = true ↔
      ∀ key, Option.Rel (fun v w => equal scalar v w = true) (xs.lookup key) (ys.lookup key) := by
  rw [equal, Bool.and_eq_true, includes_iff, decide_eq_true_eq]
  constructor
  · rintro ⟨hincludes, hkeys⟩ key
    cases hx : xs.lookup key with
    | none =>
      cases hy : ys.lookup key with
      | none => exact .none
      | some w =>
        have hmem := hkeys key (mem_keys_iff.mpr (by rw [hy]; exact Option.some_ne_none w))
        exact absurd hx (mem_keys_iff.mp hmem)
    | some v =>
      obtain ⟨w, hw, hequal⟩ := hincludes key List.not_mem_nil v hx
      rw [hw]
      exact .some hequal
  · intro h
    constructor
    · intro key _ v hv
      have hrel := h key
      rw [hv] at hrel
      cases hy : ys.lookup key with
      | none =>
        rw [hy] at hrel
        cases hrel
      | some w =>
        rw [hy] at hrel
        cases hrel with
        | some hequal => exact ⟨w, rfl, hequal⟩
    · intro key hkey
      rw [mem_keys_iff] at hkey ⊢
      intro hx
      have hrel := h key
      rw [hx] at hrel
      cases hy : ys.lookup key with
      | none => exact hkey hy
      | some w =>
        rw [hy] at hrel
        cases hrel

theorem equal_list_iff {xs ys : List Value} : equal scalar (.list xs) (.list ys) = true ↔
    List.Forall₂ (fun x y => equal scalar x y = true) xs ys := by
  rw [equal, equalList_iff]

theorem equal_scalar_iff {v w : Value} (hlist : ∀ xs ys, v = .list xs → w ≠ .list ys)
    (hdict : ∀ xs ys, v = .dict xs → w ≠ .dict ys) :
    equal scalar v w = true ↔ ∃ x, scalar v = some x ∧ scalar w = some x := by
  unfold equal
  split
  · exact absurd rfl (hlist _ _ rfl)
  · exact absurd rfl (hdict _ _ rfl)
  · rw [Bool.and_eq_true, Option.isSome_iff_exists, decide_eq_true_eq]
    constructor
    · rintro ⟨⟨x, hx⟩, heq⟩
      exact ⟨x, hx, heq ▸ hx⟩
    · rintro ⟨x, hx, hx'⟩
      exact ⟨⟨x, hx⟩, hx.trans hx'.symm⟩

theorem equal_symm {v w : Value} (h : equal scalar v w = true) : equal scalar w v = true := by
  have hscalar : ∀ {v w : Value}, (∀ xs ys, v = .list xs → w ≠ .list ys) →
      (∀ xs ys, v = .dict xs → w ≠ .dict ys) → equal scalar v w = true →
      equal scalar w v = true := by
    intro v w hlist hdict h
    obtain ⟨x, hx, hx'⟩ := (equal_scalar_iff hlist hdict).mp h
    exact (equal_scalar_iff (fun xs ys hw hv => hlist ys xs hv hw)
      fun xs ys hw hv => hdict ys xs hv hw).mpr ⟨x, hx', hx⟩
  induction v using Value.induction generalizing w with
  | list xs ih =>
    cases w with
    | list ys =>
      rw [equal_list_iff] at h ⊢
      have hback : List.Forall₂ (fun x y => equal scalar y x = true) xs ys := by
        rw [List.forall₂_iff_get] at h ⊢
        exact ⟨h.1, fun i hi hi' => ih _ (List.get_mem _ _) (h.2 i hi hi')⟩
      exact hback.flip
    | _ => exact hscalar (by simp) (by simp) h
  | dict xs ih =>
    cases w with
    | dict ys =>
      rw [equal_dict_iff] at h ⊢
      intro key
      have hkey := h key
      cases hx : xs.lookup key with
      | none =>
        rw [hx] at hkey
        generalize ys.lookup key = y at hkey
        cases hkey
        exact .none
      | some v =>
        have hmem : (key, v) ∈ xs := by
          obtain ⟨l₁, l₂, rfl, -⟩ := List.lookup_eq_some_iff.mp hx
          exact List.mem_append_right l₁ List.mem_cons_self
        rw [hx] at hkey
        generalize ys.lookup key = y at hkey
        cases hkey with
        | some hequal => exact .some (ih (key, v) hmem hequal)
    | _ => exact hscalar (by simp) (by simp) h
  | scalar v hlist hdict =>
    exact hscalar (fun xs _ hv => absurd hv (hlist xs)) (fun xs _ hv => absurd hv (hdict xs)) h

end Equal
end Json
