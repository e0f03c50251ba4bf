import Mathlib.Algebra.BigOperators.Group.List.Basic
import Mathlib.Algebra.Order.Ring.Int
import Mathlib.Order.Defs.Unbundled

/-! Service by priority: of the items that wait in queues, the front one of the best class is
served, class by class and within a class kind by kind, until the demand is met. -/
namespace Priority

/-- Which classes and kinds come first, how much of an item can be served at once, and what its
queue is after that. -/
structure Rules (C K I : Type) where
  better : C → C → Prop
  sooner : K → K → Prop
  available : I → ℤ
  requeue : I → List I → ℤ → List I

/-- One service: of which item, in which class, and how much. -/
structure Service (C I : Type) where
  item : I
  place : C
  qty : ℤ

abbrev Queues (C K I : Type) := C → K → List I

variable {C K I : Type} {rules : Rules C K I} {acceptable : C → Prop}
  {queues queues' queues'' : Queues C K I} {demand demand' demand'' : ℤ}
  {services more : List (Service C I)}

/-- The item is the one to serve next, and `rest` waits behind it. -/
structure Front (rules : Rules C K I) (queues : Queues C K I) (place : C) (kind : K) (item : I)
    (rest : List I) : Prop where
  queue : queues place kind = item :: rest
  best : ∀ other, rules.better other place → ∀ kind, queues other kind = []
  first : ∀ other, rules.sooner other kind → queues place other = []

/-- Nothing acceptable waits. -/
def Exhausted (acceptable : C → Prop) (queues : Queues C K I) : Prop :=
  ∀ place, acceptable place → ∀ kind, queues place kind = []

/-- The queues after one of them is replaced. -/
def replaced [DecidableEq C] [DecidableEq K] (queues : Queues C K I) (place : C) (kind : K)
    (items : List I) : Queues C K I :=
  fun place' kind' => if place' = place ∧ kind' = kind then items else queues place' kind'

variable [DecidableEq C] [DecidableEq K]

/-- Services one after the other, with what is left of the demand. -/
inductive Serves (rules : Rules C K I) (acceptable : C → Prop) :
    Queues C K I → ℤ → List (Service C I) → Queues C K I → ℤ → Prop
  | refl (queues : Queues C K I) (demand : ℤ) : Serves rules acceptable queues demand [] queues demand
  | serve {queues queues' : Queues C K I} {demand demand' : ℤ} {place : C} {kind : K} {item : I}
      {rest : List I} {services : List (Service C I)} :
      0 < demand → acceptable place → Front rules queues place kind item rest →
      Serves rules acceptable
        (replaced queues place kind
          (rules.requeue item rest (min demand (rules.available item))))
        (demand - min demand (rules.available item)) services queues' demand' →
      Serves rules acceptable queues demand
        (⟨item, place, min demand (rules.available item)⟩ :: services) queues' demand'

/-- The services are over: the demand is met or nothing acceptable waits. -/
def Over (acceptable : C → Prop) (queues : Queues C K I) (demand : ℤ) : Prop :=
  demand ≤ 0 ∨ Exhausted acceptable queues

section Deterministic
variable [hclasses : Std.Trichotomous rules.better] [hkinds : Std.Trichotomous rules.sooner]

omit [DecidableEq C] [DecidableEq K] in
/-- The next item is one. -/
theorem Front.unique {place place' : C} {kind kind' : K} {item item' : I} {rest rest' : List I}
    (h : Front rules queues place kind item rest) (h' : Front rules queues place' kind' item' rest') :
    place = place' ∧ kind = kind' ∧ item = item' ∧ rest = rest' := by
  have hplace : place = place' := by
    apply hclasses.trichotomous
    · intro hbetter
      have hnone := h'.best _ hbetter kind
      rw [h.queue] at hnone
      cases hnone
    · intro hbetter
      have hnone := h.best _ hbetter kind'
      rw [h'.queue] at hnone
      cases hnone
  subst hplace
  have hkind : kind = kind' := by
    apply hkinds.trichotomous
    · intro hsooner
      have hnone := h'.first _ hsooner
      rw [h.queue] at hnone
      cases hnone
    · intro hsooner
      have hnone := h.first _ hsooner
      rw [h'.queue] at hnone
      cases hnone
  subst hkind
  have hsame := h.queue.symm.trans h'.queue
  rw [List.cons.injEq] at hsame
  exact ⟨rfl, rfl, hsame⟩

/-- Services that may be cut short are the first of those that are over. -/
theorem Serves.isPrefix {others : List (Service C I)}
    (h : Serves rules acceptable queues demand services queues' demand')
    (h' : Serves rules acceptable queues demand others queues'' demand'')
    (hover : Over acceptable queues'' demand'') : services <+: others := by
  induction h generalizing others with
  | refl => exact List.nil_prefix
  | @serve _ _ _ _ place kind _ _ _ hpos hacceptable hfront _ ih =>
    cases h' with
    | refl =>
      rcases hover with hmet | hnone
      · omega
      · have hempty := hnone place hacceptable kind
        rw [hfront.queue] at hempty
        cases hempty
    | serve _ _ hfront' hrest' =>
      obtain ⟨rfl, rfl, rfl, rfl⟩ := hfront.unique hfront'
      exact List.cons_prefix_cons.mpr ⟨rfl, ih hrest'⟩

end Deterministic
end Priority
