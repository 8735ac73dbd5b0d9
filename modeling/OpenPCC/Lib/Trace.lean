import Mathlib.Tactic.TypeStar

/-!
# Runs of a deterministic system

A system with states `S` takes a step for each action. `Always step P s acts`: `P` holds in every
state of the run from `s`; `Along step Q s acts`: `Q` holds of every step, in the state before it.
If a step keeps `P` exactly when it satisfies `Q`, the two agree on whole runs
(`always_iff_along`). An invariant is a `P` that every step keeps (`always_of_step`).
-/

namespace Trace

variable {S A : Type*} (step : S → A → S)

def Always (P : S → Prop) : S → List A → Prop
  | s, [] => P s
  | s, a :: acts => P s ∧ Always P (step s a) acts

def Along (Q : S → A → Prop) : S → List A → Prop
  | _, [] => True
  | s, a :: acts => Q s a ∧ Along Q (step s a) acts

variable {step} {P : S → Prop} {E Q : S → A → Prop}

instance Along.decidable [∀ s a, Decidable (Q s a)] :
    ∀ (s : S) (acts : List A), Decidable (Along step Q s acts)
  | _, [] => isTrue trivial
  | s, a :: acts =>
    have := Along.decidable (step s a) acts
    inferInstanceAs (Decidable (Q s a ∧ Along step Q (step s a) acts))

theorem Always.head {s : S} {acts : List A} (h : Always step P s acts) : P s := by
  cases acts with
  | nil => exact h
  | cons a acts => exact h.1

theorem Always.last {s : S} {acts : List A} (h : Always step P s acts) :
    P (acts.foldl step s) := by
  induction acts generalizing s with
  | nil => exact h
  | cons a acts ih => exact ih h.2

theorem Always.mono {P' : S → Prop} (hP : ∀ s, P s → P' s) {s : S} {acts : List A}
    (h : Always step P s acts) : Always step P' s acts := by
  induction acts generalizing s with
  | nil => exact hP s h
  | cons a acts ih => exact ⟨hP s h.1, ih h.2⟩

theorem Always.and {P' : S → Prop} {s : S} {acts : List A} (h : Always step P s acts)
    (h' : Always step P' s acts) : Always step (fun s => P s ∧ P' s) s acts := by
  induction acts generalizing s with
  | nil => exact ⟨h, h'⟩
  | cons a acts ih => exact ⟨⟨h.1, h'.1⟩, ih h.2 h'.2⟩

/-- In the states of a run, an invariant may be used to compare two properties. -/
theorem Always.congr {Q Q' : S → Prop} (h : ∀ s, P s → (Q s ↔ Q' s)) {s : S} {acts : List A}
    (hs : Always step P s acts) : Always step Q s acts ↔ Always step Q' s acts := by
  induction acts generalizing s with
  | nil => exact h s hs
  | cons a acts ih => exact and_congr (h s hs.1) (ih hs.2)

theorem Always.along_congr {R : S → A → Prop} (h : ∀ s a, P s → (Q s a ↔ R s a)) {s : S}
    {acts : List A} (hs : Always step P s acts) : Along step Q s acts ↔ Along step R s acts := by
  induction acts generalizing s with
  | nil => exact Iff.rfl
  | cons a acts ih => exact and_congr (h s a hs.1) (ih hs.2)

theorem always_of_step (hstep : ∀ s a, P s → E s a → P (step s a)) {s : S} {acts : List A}
    (hs : P s) (he : Along step E s acts) : Always step P s acts := by
  induction acts generalizing s with
  | nil => exact hs
  | cons a acts ih => exact ⟨hs, ih (hstep s a hs he.1) he.2⟩

theorem along_of_step (hkeep : ∀ s a, P s → E s a → P (step s a))
    (hstep : ∀ s a, P s → E s a → Q s a) {s : S} {acts : List A} (hs : P s)
    (he : Along step E s acts) : Along step Q s acts := by
  induction acts generalizing s with
  | nil => trivial
  | cons a acts ih => exact ⟨hstep s a hs he.1, ih (hkeep s a hs he.1) he.2⟩

/-- If `Q` and `R` say the same of a step in the states in which `P` holds, and the steps that
satisfy `Q` keep `P`, they say the same of a run. -/
theorem along_congr {R : S → A → Prop} (hstep : ∀ s a, P s → (Q s a ↔ R s a))
    (hkeep : ∀ s a, P s → Q s a → P (step s a)) {s : S} {acts : List A} (hs : P s) :
    Along step Q s acts ↔ Along step R s acts := by
  induction acts generalizing s with
  | nil => exact Iff.rfl
  | cons a acts ih =>
    rw [Along, Along, ← hstep s a hs]
    exact and_congr_right fun hQ => ih (hkeep s a hs hQ)

theorem along_iff_forall_mem {R : A → Prop} {s : S} {acts : List A} :
    Along step (fun _ a => R a) s acts ↔ ∀ a ∈ acts, R a := by
  induction acts generalizing s with
  | nil => simp [Along]
  | cons a acts ih => rw [Along, ih, List.forall_mem_cons]

theorem along_true {s : S} {acts : List A} : Along step (fun _ _ => True) s acts :=
  along_iff_forall_mem.2 fun _ _ => trivial

theorem Along.and {R : S → A → Prop} {s : S} {acts : List A} (h : Along step Q s acts)
    (h' : Along step R s acts) : Along step (fun s a => Q s a ∧ R s a) s acts := by
  induction acts generalizing s with
  | nil => trivial
  | cons a acts ih => exact ⟨⟨h.1, h'.1⟩, ih h.2 h'.2⟩

theorem Along.and_forall_mem {R : A → Prop} {s : S} {acts : List A} (h : Along step Q s acts)
    (hR : ∀ a ∈ acts, R a) : Along step (fun s a => Q s a ∧ R a) s acts :=
  h.and (along_iff_forall_mem.2 hR)

/-- If `F` holds after a step when it held before or the step is one of `G`, it holds after a run
when it held before or one of the steps is one of `G`. -/
theorem foldl_iff_exists_mem {F : S → Prop} {G : A → Prop}
    (hstep : ∀ s a, E s a → (F (step s a) ↔ F s ∨ G a)) {s : S} {acts : List A}
    (he : Along step E s acts) : F (acts.foldl step s) ↔ F s ∨ ∃ a ∈ acts, G a := by
  induction acts generalizing s with
  | nil => simp
  | cons a acts ih =>
    rw [List.foldl_cons, ih he.2, hstep s a he.1, or_assoc]
    simp

/-- If `P` is kept by the steps that satisfy `Q`, and `P'` holds after any other step and is kept by
every step, a run ends in `P` or in `P'`, depending on whether all its steps satisfy `Q`. -/
theorem along_or_of_step {P' : S → Prop} (hkeep : ∀ s a, P s → E s a → Q s a → P (step s a))
    (hbreak : ∀ s a, P s → E s a → ¬ Q s a → P' (step s a))
    (hkeep' : ∀ s a, P' s → E s a → P' (step s a)) {s : S} {acts : List A} (hs : P s)
    (he : Along step E s acts) :
    (Along step Q s acts ∧ P (acts.foldl step s)) ∨
      (¬ Along step Q s acts ∧ P' (acts.foldl step s)) := by
  induction acts generalizing s with
  | nil => exact .inl ⟨trivial, hs⟩
  | cons a acts ih =>
    by_cases hQ : Q s a
    · obtain ⟨hall, hP⟩ | ⟨hnot, hP'⟩ := ih (hkeep s a hs he.1 hQ) he.2
      · exact .inl ⟨⟨hQ, hall⟩, hP⟩
      · exact .inr ⟨fun hall => hnot hall.2, hP'⟩
    · exact .inr ⟨fun hall => hQ hall.1, (always_of_step hkeep' (hbreak s a hs he.1 hQ) he.2).last⟩

theorem always_iff_along (hstep : ∀ s a, P s → E s a → (P (step s a) ↔ Q s a)) {s : S}
    {acts : List A} (hs : P s) (he : Along step E s acts) :
    Always step P s acts ↔ Along step Q s acts := by
  induction acts generalizing s with
  | nil => exact iff_of_true hs trivial
  | cons a acts ih =>
    obtain ⟨hea, he⟩ := he
    constructor
    · rintro ⟨-, hall⟩
      have hP := hall.head
      exact ⟨(hstep s a hs hea).1 hP, (ih hP he).1 hall⟩
    · rintro ⟨hQ, hall⟩
      have hP := (hstep s a hs hea).2 hQ
      exact ⟨hs, (ih hP he).2 hall⟩

/-- The same for a `P` that follows from an invariant `I`, if the steps that satisfy `Q` keep it. -/
theorem always_iff_along_of_inv {I : S → Prop} (hI : ∀ s, I s → P s)
    (hstep : ∀ s a, I s → (P (step s a) ↔ Q s a)) (hkeep : ∀ s a, I s → Q s a → I (step s a))
    {s : S} {acts : List A} (hs : I s) : Always step P s acts ↔ Along step Q s acts := by
  induction acts generalizing s with
  | nil => exact iff_of_true (hI s hs) trivial
  | cons a acts ih =>
    constructor
    · rintro ⟨-, hall⟩
      have hQ := (hstep s a hs).1 hall.head
      exact ⟨hQ, (ih (hkeep s a hs hQ)).1 hall⟩
    · rintro ⟨hQ, hall⟩
      exact ⟨hI s hs, (ih (hkeep s a hs hQ)).2 hall⟩

end Trace
