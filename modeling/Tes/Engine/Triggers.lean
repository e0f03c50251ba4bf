import Tes.Engine.Runs

/-! Evaluating the stops of a symbol does nothing, or triggers one and says so. -/
namespace Tes
open MatchingEngine EStateM

def Event.isTrigger : Event → Bool
  | .stopOrderTriggered .. => true
  | _ => false

/-- Some stop has triggered. -/
def Triggered (events : List Event) : Prop := ∃ e ∈ events, e.isTrigger = true

theorem Triggered.left {events : List Event} (h : Triggered events) (more : List Event) :
    Triggered (events ++ more) := by
  obtain ⟨e, he, htrigger⟩ := h
  exact ⟨e, List.mem_append_left _ he, htrigger⟩

theorem Triggered.right {more : List Event} (h : Triggered more) (events : List Event) :
    Triggered (events ++ more) := by
  obtain ⟨e, he, htrigger⟩ := h
  exact ⟨e, List.mem_append_right _ he, htrigger⟩

namespace MatchingEngine
variable {s : MatchingEngine} {symbol : Symbol}

theorem outcome_trivial {α : Type} (x : Engine α) (s : MatchingEngine) :
    Outcome x s (fun _ _ => True) fun _ _ => True := by
  unfold Outcome
  split <;> trivial

theorem triggerAll_triggered {id : OrderId} {ready : List OrderId} {stop : StopOrderState}
    (hstop : s.stopOrdersById.lookup id = some stop) :
    Outcome (triggerAll symbol (id :: ready)) s (fun r _ => Triggered r.2) fun _ _ => True := by
  rw [triggerAll]
  simp only [outcome_bind, outcome_get, hstop, outcome_set]
  refine (outcome_trivial _ _).mono (fun child s₁ _ => ?_) fun _ _ _ => trivial
  exact (outcome_trivial _ _).mono (fun r s₂ _ => ⟨_, List.mem_cons_self, rfl⟩) fun _ _ _ => trivial

/-- A round of the cascade starts with a stop that is on record. -/
theorem readyStops_head {current : ℤ} {id : OrderId} {ready : List OrderId}
    (h : s.readyStops symbol current = id :: ready) :
    ∃ stop, s.stopOrdersById.lookup id = some stop := by
  have hid : id ∈ s.readyStops symbol current := h ▸ List.mem_cons_self
  unfold readyStops at hid
  rw [(List.perm_insertionSort _ _).mem_iff, List.mem_filter] at hid
  obtain ⟨stop, hstop, -⟩ := of_decide_eq_true hid.2
  exact ⟨stop, hstop⟩

theorem cascade_quiet (fuel : ℕ) (s : MatchingEngine) (symbol : Symbol) :
    Outcome (cascade symbol fuel) s (fun events s' => events = [] ∧ s' = s ∨ Triggered events)
      fun _ _ => True := by
  cases fuel with
  | zero => exact Or.inl ⟨rfl, rfl⟩
  | succ fuel =>
    rw [cascade]
    simp only [outcome_bind, outcome_get]
    split
    · exact Or.inl ⟨rfl, rfl⟩
    rename_i current hcurrent
    cases hready : s.readyStops symbol current with
    | nil =>
      rw [if_pos rfl]
      exact Or.inl ⟨rfl, rfl⟩
    | cons id ready =>
      obtain ⟨stop, hstop⟩ := readyStops_head hready
      rw [if_neg (by simp), outcome_bind]
      refine (triggerAll_triggered hstop).mono (fun r s₁ htriggered => ?_) fun _ _ _ => trivial
      obtain ⟨traded, events⟩ := r
      cases traded with
      | false => exact Or.inr htriggered
      | true =>
        simp only [if_true, outcome_bind]
        exact (outcome_trivial _ _).mono (fun more _ _ => Or.inr (htriggered.left more))
          fun _ _ _ => trivial

theorem evaluateStopOrders_quiet (s : MatchingEngine) (symbol : Symbol) :
    Outcome (evaluateStopOrders symbol) s
      (fun events s' => events = [] ∧ s' = s ∨ Triggered events) fun _ _ => True := by
  unfold evaluateStopOrders
  simp only [outcome_bind, outcome_get]
  split_ifs
  · exact Or.inl ⟨rfl, rfl⟩
  · exact cascade_quiet _ _ _

/-- An operation that triggers no stop does what its entry does, and tracks it. -/
theorem followEntry_quiet {entry : Engine (List Event)} {Q : List Event → MatchingEngine → Prop}
    {E : EngineError → MatchingEngine → Prop} (h : Outcome entry s Q E) :
    Outcome (followEntry symbol entry) s
      (fun events s' => Triggered events ∨ ∃ s₁, Q events s₁ ∧ s' = s₁.trackEvents events)
      fun _ _ => True := by
  unfold followEntry
  rw [outcome_bind]
  refine h.mono (fun events s₁ hQ => ?_) fun _ _ _ => trivial
  rw [outcome_bind]
  refine (evaluateStopOrders_quiet s₁ symbol).mono (fun triggered s₂ hquiet => ?_) fun _ _ _ => trivial
  simp only [outcome_bind, outcome_modify, outcome_pure]
  rcases hquiet with ⟨rfl, rfl⟩ | htriggered
  · rw [List.append_nil]
    exact Or.inr ⟨s₂, hQ, rfl⟩
  · exact Or.inl (htriggered.right events)

end MatchingEngine
end Tes
