import Mathlib.Algebra.Group.Basic

/-! Paths of a transition relation that emits events, and the induction rules for
what a path keeps and what it accumulates. -/
namespace Transition

variable {σ ε : Type}

/-- Finite paths, with the events of their steps in order. -/
inductive Path (R : σ → List ε → σ → Prop) : σ → List ε → σ → Prop
  | refl (s : σ) : Path R s [] s
  | step {s s' s'' : σ} {e es : List ε} :
      R s e s' → Path R s' es s'' → Path R s (e ++ es) s''

namespace Path
variable {R R' : σ → List ε → σ → Prop} {s s' s'' : σ} {e es : List ε}

theorem single (h : R s e s') : Path R s e s' := by
  simpa using step h (refl s')

theorem trans (h : Path R s e s') (h' : Path R s' es s'') : Path R s (e ++ es) s'' := by
  induction h with
  | refl => exact h'
  | step hr _ ih => rw [List.append_assoc]; exact step hr (ih h')

/-- Append one step that emits nothing. -/
theorem snoc_silent (h : Path R s e s') (h' : R s' [] s'') : Path R s e s'' := by
  simpa using h.trans (single h')

theorem mono (hR : ∀ {a e b}, R a e b → R' a e b) (h : Path R s e s') : Path R' s e s' := by
  induction h with
  | refl => exact refl _
  | step hr _ ih => exact step (hR hr) ih

/-- What every step keeps, every path keeps. -/
theorem invariant {I : σ → Prop} (hstep : ∀ {a e b}, I a → R a e b → I b)
    (h : Path R s e s') (hs : I s) : I s' := by
  induction h with
  | refl => exact hs
  | step hr _ ih => exact ih (hstep hs hr)

/-- A path of steps taken inside an invariant is a path of the restricted relation. -/
theorem restrict {I : σ → Prop} (hstep : ∀ {a e b}, I a → R a e b → I b)
    (h : Path R s e s') (hs : I s) :
    Path (fun a e b => I a ∧ R a e b) s e s' := by
  induction h with
  | refl => exact refl _
  | step hr _ ih => exact step ⟨hs, hr⟩ (ih (hstep hs hr))

/-- A quantity that each step moves by the weight of its events is moved by a path by
the weight of all its events. -/
theorem accumulates {M : Type} [AddCommGroup M] {f : σ → M} {w : List ε → M}
    (hnil : w [] = 0) (happend : ∀ e es, w (e ++ es) = w e + w es)
    (hstep : ∀ {a e b}, R a e b → f b = f a + w e) (h : Path R s e s') :
    f s' = f s + w e := by
  induction h with
  | refl => rw [hnil, add_zero]
  | step hr _ ih => rw [ih, hstep hr, happend, add_assoc]

/-- A reader of the events who keeps up with every step keeps up with a path. -/
theorem reads {τ : Type} (read : τ → List ε → τ) (hnil : ∀ x, read x [] = x)
    (happend : ∀ x e es, read x (e ++ es) = read (read x e) es) {K : σ → τ → Prop}
    (hstep : ∀ {a e b x}, K a x → R a e b → K b (read x e)) (h : Path R s e s') {x : τ}
    (hs : K s x) : K s' (read x e) := by
  induction h generalizing x with
  | refl =>
    rw [hnil]
    exact hs
  | step hr _ ih =>
    rw [happend]
    exact ih (hstep hs hr)

end Path
end Transition
