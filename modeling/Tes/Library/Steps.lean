import Mathlib.Data.List.Infix

/-! Runs of a system whose steps are functions of the state: what holds in every state of a
run, and what each of its steps meets. -/
namespace Steps

variable {σ α : Type} (step : σ → α → σ)

/-- The property holds at the start and after every step. -/
def Always (P : σ → Prop) (s : σ) (as : List α) : Prop :=
  ∀ done, done <+: as → P (done.foldl step s)

/-- Every step meets the condition in the state it is taken in. -/
def Each (C : σ → α → Prop) : σ → List α → Prop
  | _, [] => True
  | s, a :: as => C s a ∧ Each C (step s a) as

variable {step} {P I : σ → Prop} {C D : σ → α → Prop} {s : σ} {a : α} {as : List α}

theorem always_nil : Always step P s [] ↔ P s := by
  constructor
  · exact fun h => h [] List.prefix_rfl
  · intro hs done hdone
    rw [List.prefix_nil.mp hdone]
    exact hs

theorem always_cons : Always step P s (a :: as) ↔ P s ∧ Always step P (step s a) as := by
  constructor
  · intro h
    exact ⟨h [] List.nil_prefix, fun done hdone => h (a :: done) (List.prefix_cons_inj a |>.mpr hdone)⟩
  · rintro ⟨hs, hrest⟩ done hdone
    cases done with
    | nil => exact hs
    | cons b done =>
      obtain ⟨hab, hrest'⟩ := List.cons_prefix_cons.mp hdone
      subst hab
      exact hrest done hrest'

/-- What holds in every state holds in the last one. -/
theorem Always.last (h : Always step P s as) : P (as.foldl step s) := h as List.prefix_rfl

theorem Always.head (h : Always step P s as) : P s := h [] List.nil_prefix

theorem Always.mono {Q : σ → Prop} (h : Always step P s as) (hPQ : ∀ s, P s → Q s) :
    Always step Q s as :=
  fun done hdone => hPQ _ (h done hdone)

/-- Conditions that agree wherever the invariant holds, and that keep it, are met alike. -/
theorem each_iff_each (hstep : ∀ s a, I s → (D s a ↔ C s a))
    (hkeep : ∀ s a, I s → C s a → I (step s a)) (hs : I s) : Each step D s as ↔ Each step C s as := by
  induction as generalizing s with
  | nil => exact Iff.rfl
  | cons a as ih =>
    rw [Each, Each, hstep s a hs]
    constructor
    · rintro ⟨hcond, hrest⟩
      exact ⟨hcond, (ih (hkeep s a hs hcond)).mp hrest⟩
    · rintro ⟨hcond, hrest⟩
      exact ⟨hcond, (ih (hkeep s a hs hcond)).mpr hrest⟩

/-- What every step keeps that meets its condition holds in every state. -/
theorem always_of_each (hkeep : ∀ s a, I s → C s a → I (step s a)) (hs : I s)
    (h : Each step C s as) : Always step I s as := by
  induction as generalizing s with
  | nil => exact always_nil.mpr hs
  | cons a as ih => exact always_cons.mpr ⟨hs, ih (hkeep s a hs h.1) h.2⟩

/-- Where a step keeps the property exactly under a condition, the property holds in every
state of a run exactly if every step meets the condition. -/
theorem always_iff_each (hI : ∀ s a, I s → I (step s a))
    (hstep : ∀ s a, I s → P s → (P (step s a) ↔ C s a)) (hIs : I s) (hs : P s) :
    Always step P s as ↔ Each step C s as := by
  induction as generalizing s with
  | nil => exact ⟨fun _ => trivial, fun _ => always_nil.mpr hs⟩
  | cons a as ih =>
    rw [always_cons, Each]
    constructor
    · rintro ⟨-, hrest⟩
      have hnext := hrest.head
      exact ⟨(hstep s a hIs hs).mp hnext, (ih (hI s a hIs) hnext).mp hrest⟩
    · rintro ⟨hcond, hrest⟩
      have hnext := (hstep s a hIs hs).mpr hcond
      exact ⟨hs, (ih (hI s a hIs) hnext).mpr hrest⟩

end Steps
