import Mathlib.Init

/-! Computations that may throw and keep the state they had reached: a weakest
precondition over both ways to end. -/
namespace EStateM

variable {ε σ α β : Type}

/-- `x`, run from `s`, ends in `Q` where it returns and in `E` where it throws. -/
def Outcome (x : EStateM ε σ α) (s : σ) (Q : α → σ → Prop) (E : ε → σ → Prop) : Prop :=
  match x s with
  | .ok a s' => Q a s'
  | .error e s' => E e s'

variable {s s' : σ} {Q Q' : α → σ → Prop} {E E' : ε → σ → Prop} {x : EStateM ε σ α}

theorem Outcome.returns (h : Outcome x s Q E) {a : α} (hx : x s = .ok a s') : Q a s' := by
  unfold Outcome at h
  rwa [hx] at h

theorem Outcome.throws (h : Outcome x s Q E) {e : ε} (hx : x s = .error e s') : E e s' := by
  unfold Outcome at h
  rwa [hx] at h

theorem Outcome.mono (h : Outcome x s Q E) (hQ : ∀ a s', Q a s' → Q' a s')
    (hE : ∀ e s', E e s' → E' e s') : Outcome x s Q' E' := by
  unfold Outcome at *
  cases hx : x s with
  | ok a s' => rw [hx] at h; exact hQ a s' h
  | error e s' => rw [hx] at h; exact hE e s' h

/-- The postconditions may use how the computation ended. -/
theorem Outcome.with_eq (h : Outcome x s Q E) :
    Outcome x s (fun a s' => x s = .ok a s' ∧ Q a s') fun e s' => x s = .error e s' ∧ E e s' := by
  unfold Outcome at *
  cases hx : x s with
  | ok a s' => rw [hx] at h; exact ⟨rfl, h⟩
  | error e s' => rw [hx] at h; exact ⟨rfl, h⟩

theorem Outcome.and (h : Outcome x s Q E) {Q' : α → σ → Prop} (h' : Outcome x s Q' E) :
    Outcome x s (fun a s' => Q a s' ∧ Q' a s') E := by
  unfold Outcome at *
  cases hx : x s with
  | ok a s' => rw [hx] at h h'; exact ⟨h, h'⟩
  | error e s' => rw [hx] at h; exact h

/-- Computations with the same outcomes end alike. -/
theorem eq_of_outcome {y : EStateM ε σ α} (h : ∀ Q E, Outcome x s Q E → Outcome y s Q E) :
    x s = y s := by
  have hself : Outcome x s (fun a s' => x s = .ok a s') fun e s' => x s = .error e s' := by
    unfold Outcome
    cases x s with
    | ok a s' => rfl
    | error e s' => rfl
  have hy := h _ _ hself
  cases hresult : y s with
  | ok a s' => exact hy.returns hresult
  | error e s' => exact hy.throws hresult

@[simp] theorem outcome_pure {a : α} : Outcome (pure a : EStateM ε σ α) s Q E ↔ Q a s := Iff.rfl

@[simp] theorem outcome_throw {e : ε} : Outcome (throw e : EStateM ε σ α) s Q E ↔ E e s := Iff.rfl

@[simp] theorem outcome_get {Q : σ → σ → Prop} :
    Outcome (get : EStateM ε σ σ) s Q E ↔ Q s s := Iff.rfl

@[simp] theorem outcome_set {t : σ} {Q : PUnit → σ → Prop} :
    Outcome (set t : EStateM ε σ PUnit) s Q E ↔ Q ⟨⟩ t := Iff.rfl

@[simp] theorem outcome_modify {f : σ → σ} {Q : PUnit → σ → Prop} :
    Outcome (modify f : EStateM ε σ PUnit) s Q E ↔ Q ⟨⟩ (f s) := Iff.rfl

@[simp] theorem outcome_bind {f : α → EStateM ε σ β} {Q : β → σ → Prop} :
    Outcome (x >>= f) s Q E ↔ Outcome x s (fun a s' => Outcome (f a) s' Q E) E := by
  change (match EStateM.bind x f s with | .ok a s' => Q a s' | .error e s' => E e s') ↔ _
  unfold Outcome EStateM.bind
  cases x s <;> rfl

end EStateM
