import Mathlib.Data.List.Forall2
import Tes.Library.Steps

/-! Machines that answer calls, and simulations that carry the answers of one over to another. -/
namespace Simulation

variable {S T Call Answer Answer' : Type}

/-- A machine answers a call and goes on in a new state. -/
abbrev Machine (S Call Answer : Type) := S → Call → Answer × S

namespace Machine

def next (m : Machine S Call Answer) (s : S) (call : Call) : S := (m s call).2

/-- The answers to calls that are made one after the other. -/
def answers (m : Machine S Call Answer) : S → List Call → List Answer
  | _, [] => []
  | s, call :: rest => (m s call).1 :: m.answers (m.next s call) rest

end Machine

/-- From related states, a call that meets the condition gets related answers and leads to related
states. -/
structure Simulates (m : Machine S Call Answer) (m' : Machine T Call Answer') (R : S → T → Prop)
    (C : T → Call → Prop) (A : Answer → Answer' → Prop) : Prop where
  answer : ∀ {s t call}, R s t → C t call → A (m s call).1 (m' t call).1
  next : ∀ {s t call}, R s t → C t call → R (m.next s call) (m'.next t call)

section Runs
variable {m : Machine S Call Answer} {m' : Machine T Call Answer'} {R : S → T → Prop}
  {C : T → Call → Prop} {A : Answer → Answer' → Prop} {s : S} {t : T} {calls : List Call}

/-- Every sequence of calls that meet the condition is answered alike. -/
theorem Simulates.answers (h : Simulates m m' R C A) (hst : R s t)
    (hcalls : Steps.Each m'.next C t calls) :
    List.Forall₂ A (m.answers s calls) (m'.answers t calls) := by
  induction calls generalizing s t with
  | nil => exact .nil
  | cons call rest ih =>
    obtain ⟨hcall, hrest⟩ := hcalls
    exact .cons (h.answer hst hcall) (ih (h.next hst hcall) hrest)

end Runs
end Simulation
