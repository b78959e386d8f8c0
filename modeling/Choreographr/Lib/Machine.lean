import Mathlib.Data.List.Basic

/-!
# Machines with outputs

A machine steps from a state by an action, or refuses the action, and emits a
list of outputs. `exec` runs a list of actions and collects every output.
`guard ok` is the same machine with the actions outside `ok` disabled, so a
statement about all runs whose steps meet a condition is a statement about all
runs of the guarded machine.

The invariant rule `exec_invariant` speaks about the outputs emitted so far as
well as the state: a law that relates two moments of a run (an identifier that
is never used twice, a published total that never decreases) is then an
ordinary invariant.
-/

namespace Choreographr.Lib

/-- A deterministic labelled transition system with outputs. -/
structure Machine (σ α ο : Type) where
  step : σ → α → Option (σ × List ο)

namespace Machine

variable {σ α ο : Type}

def exec (M : Machine σ α ο) : σ → List α → Option (σ × List ο)
  | s, [] => some (s, [])
  | s, a :: rest =>
      match M.step s a with
      | none => none
      | some (s₁, os) =>
          match M.exec s₁ rest with
          | none => none
          | some (s₂, os') => some (s₂, os ++ os')

@[simp] theorem exec_nil (M : Machine σ α ο) (s : σ) : M.exec s [] = some (s, []) := rfl

theorem exec_cons_eq_some {M : Machine σ α ο} {s s' : σ} {a : α} {rest : List α}
    {os : List ο} :
    M.exec s (a :: rest) = some (s', os) ↔
      ∃ s₁ os₁ os₂, M.step s a = some (s₁, os₁) ∧ M.exec s₁ rest = some (s', os₂) ∧
        os = os₁ ++ os₂ := by
  constructor
  · intro h
    simp only [exec] at h
    split at h
    · cases h
    · rename_i s₁ os₁ hStep
      split at h
      · cases h
      · rename_i s₂ os₂ hRest
        cases h
        exact ⟨s₁, os₁, os₂, hStep, hRest, rfl⟩
  · rintro ⟨s₁, os₁, os₂, hStep, hRest, rfl⟩
    simp [exec, hStep, hRest]

@[simp] theorem exec_singleton (M : Machine σ α ο) (s : σ) (a : α) : M.exec s [a] = M.step s a := by
  simp only [exec]
  split
  · rename_i hStep
    exact hStep.symm
  · rename_i hStep
    simp [hStep]

/-- A run of two action lists is the first run followed by the second. -/
theorem exec_append_eq_some {M : Machine σ α ο} {s s' : σ} {as bs : List α} {os : List ο} :
    M.exec s (as ++ bs) = some (s', os) ↔
      ∃ s₁ os₁ os₂, M.exec s as = some (s₁, os₁) ∧ M.exec s₁ bs = some (s', os₂) ∧
        os = os₁ ++ os₂ := by
  induction as generalizing s os with
  | nil =>
    constructor
    · intro h
      exact ⟨s, [], os, rfl, h, rfl⟩
    · rintro ⟨s₁, os₁, os₂, hNil, hRest, rfl⟩
      cases hNil
      exact hRest
  | cons a rest ih =>
    rw [List.cons_append, exec_cons_eq_some]
    constructor
    · rintro ⟨s₁, os₁, os₂, hStep, hRest, rfl⟩
      obtain ⟨s₂, os₃, os₄, hFirst, hSecond, rfl⟩ := ih.mp hRest
      exact ⟨s₂, os₁ ++ os₃, os₄, exec_cons_eq_some.mpr ⟨s₁, os₁, os₃, hStep, hFirst, rfl⟩,
        hSecond, by simp⟩
    · rintro ⟨s₂, os₁, os₂, hFirst, hSecond, rfl⟩
      obtain ⟨s₁, os₃, os₄, hStep, hRest, rfl⟩ := exec_cons_eq_some.mp hFirst
      exact ⟨s₁, os₃, os₄ ++ os₂, hStep, ih.mpr ⟨s₂, os₄, os₂, hRest, hSecond, rfl⟩, by simp⟩

/-- Induction over a run. `P` may speak about every output emitted so far. -/
theorem exec_invariant_after {M : Machine σ α ο} {P : List ο → σ → Prop}
    (hStep : ∀ {os s a s' os'}, P os s → M.step s a = some (s', os') → P (os ++ os') s')
    {s s' : σ} {as : List α} {os os' : List ο}
    (hInit : P os s) (hExec : M.exec s as = some (s', os')) : P (os ++ os') s' := by
  induction as generalizing s os os' with
  | nil =>
    cases hExec
    simpa using hInit
  | cons a rest ih =>
    obtain ⟨s₁, os₁, os₂, hFirst, hRest, rfl⟩ := exec_cons_eq_some.mp hExec
    have hNext := ih (hStep hInit hFirst) hRest
    simpa using hNext

/-- The invariant rule for a run from its beginning. -/
theorem exec_invariant {M : Machine σ α ο} {P : List ο → σ → Prop}
    (hStep : ∀ {os s a s' os'}, P os s → M.step s a = some (s', os') → P (os ++ os') s')
    {s s' : σ} {as : List α} {os : List ο}
    (hInit : P [] s) (hExec : M.exec s as = some (s', os)) : P os s' :=
  exec_invariant_after hStep hInit hExec

/-- The invariant rule for a property of the state alone. -/
theorem exec_state_invariant {M : Machine σ α ο} {P : σ → Prop}
    (hStep : ∀ {s a s' os}, P s → M.step s a = some (s', os) → P s')
    {s s' : σ} {as : List α} {os : List ο}
    (hInit : P s) (hExec : M.exec s as = some (s', os)) : P s' :=
  exec_invariant (P := fun _ s => P s) (fun h hs => hStep h hs) hInit hExec

/-- The invariant rule for the runs whose actions all satisfy `Q`. -/
theorem exec_invariant_on {M : Machine σ α ο} {P : σ → Prop} {Q : α → Prop}
    (hStep : ∀ {s a s' os}, P s → Q a → M.step s a = some (s', os) → P s')
    {s s' : σ} {as : List α} {os : List ο} (hInit : P s) (hActions : ∀ a ∈ as, Q a)
    (hExec : M.exec s as = some (s', os)) : P s' := by
  induction as generalizing s os with
  | nil =>
    cases hExec
    exact hInit
  | cons a rest ih =>
    obtain ⟨s₁, os₁, os₂, hFirst, hRest, rfl⟩ := exec_cons_eq_some.mp hExec
    exact ih (hStep hInit (hActions a List.mem_cons_self) hFirst)
      (fun b hb => hActions b (List.mem_cons_of_mem a hb)) hRest

/-- The same machine with the actions outside `ok` disabled. -/
def guard (M : Machine σ α ο) (ok : σ → α → Prop) [∀ s a, Decidable (ok s a)] :
    Machine σ α ο :=
  ⟨fun s a => if ok s a then M.step s a else none⟩

theorem guard_step_eq_some {M : Machine σ α ο} {ok : σ → α → Prop}
    [∀ s a, Decidable (ok s a)] {s s' : σ} {a : α} {os : List ο} :
    (M.guard ok).step s a = some (s', os) ↔ ok s a ∧ M.step s a = some (s', os) := by
  simp only [guard]
  split
  · rename_i hOk
    simp [hOk]
  · rename_i hOk
    simp [hOk]

/-- A run of the guarded machine is a run of the machine. -/
theorem exec_of_guard {M : Machine σ α ο} {ok : σ → α → Prop} [∀ s a, Decidable (ok s a)]
    {s s' : σ} {as : List α} {os : List ο}
    (h : (M.guard ok).exec s as = some (s', os)) : M.exec s as = some (s', os) := by
  induction as generalizing s os with
  | nil => exact h
  | cons a rest ih =>
    obtain ⟨s₁, os₁, os₂, hStep, hRest, rfl⟩ := exec_cons_eq_some.mp h
    exact exec_cons_eq_some.mpr
      ⟨s₁, os₁, os₂, (guard_step_eq_some.mp hStep).2, ih hRest, rfl⟩

/-! ## Laws about single steps of a run -/

/-- Every step of a run satisfies `P`; the run ends at the first refused
action. -/
def EveryStep (M : Machine σ α ο) (P : σ → α → σ → List ο → Prop) : σ → List α → Prop
  | _, [] => True
  | s, a :: rest =>
      match M.step s a with
      | none => True
      | some (s₁, os) => P s a s₁ os ∧ M.EveryStep P s₁ rest

instance decidableEveryStep (M : Machine σ α ο) (P : σ → α → σ → List ο → Prop)
    [∀ s a s' os, Decidable (P s a s' os)] : ∀ s as, Decidable (M.EveryStep P s as)
  | _, [] => inferInstanceAs (Decidable True)
  | s, a :: rest =>
      match h : M.step s a with
      | none => decidable_of_iff True (by rw [EveryStep, h])
      | some (s₁, os) =>
          have := decidableEveryStep M P s₁ rest
          decidable_of_iff (P s a s₁ os ∧ M.EveryStep P s₁ rest) (by rw [EveryStep, h])

/-- Two laws that agree on every step from an invariant state agree on every
run. -/
theorem everyStep_congr {M : Machine σ α ο} {P Q : σ → α → σ → List ο → Prop} {I : σ → Prop}
    (hInv : ∀ {s a s' os}, I s → M.step s a = some (s', os) → I s')
    (hStep : ∀ {s a s' os}, I s → M.step s a = some (s', os) → (P s a s' os ↔ Q s a s' os))
    {s : σ} (h : I s) (as : List α) : M.EveryStep P s as ↔ M.EveryStep Q s as := by
  induction as generalizing s with
  | nil => rfl
  | cons a rest ih =>
    simp only [EveryStep]
    split
    · rfl
    · rename_i s₁ os hFirst
      rw [hStep h hFirst, ih (hInv h hFirst)]

/-- A law that holds of every step from an invariant state holds along every run. -/
theorem everyStep_of_step {M : Machine σ α ο} {P : σ → α → σ → List ο → Prop} {I : σ → Prop}
    (hInv : ∀ {s a s' os}, I s → M.step s a = some (s', os) → I s')
    (hStep : ∀ {s a s' os}, I s → M.step s a = some (s', os) → P s a s' os)
    {s : σ} (h : I s) (as : List α) : M.EveryStep P s as := by
  induction as generalizing s with
  | nil => trivial
  | cons a rest ih =>
    simp only [EveryStep]
    split
    · trivial
    · rename_i s₁ os hFirst
      exact ⟨hStep h hFirst, ih (hInv h hFirst)⟩

/-- A run whose steps all meet the condition is a run of the guarded machine. -/
theorem exec_guard_of_everyStep {M : Machine σ α ο} {ok : σ → α → Prop}
    [∀ s a, Decidable (ok s a)] {s s' : σ} {as : List α} {os : List ο}
    (hExec : M.exec s as = some (s', os)) (hOk : M.EveryStep (fun s a _ _ => ok s a) s as) :
    (M.guard ok).exec s as = some (s', os) := by
  induction as generalizing s os with
  | nil => exact hExec
  | cons a rest ih =>
    obtain ⟨s₁, os₁, os₂, hStep, hRest, rfl⟩ := exec_cons_eq_some.mp hExec
    rw [EveryStep, hStep] at hOk
    exact exec_cons_eq_some.mpr
      ⟨s₁, os₁, os₂, guard_step_eq_some.mpr ⟨hOk.1, hStep⟩, ih hRest hOk.2, rfl⟩

/-- The law holds of the last step of a run. -/
theorem EveryStep.last {M : Machine σ α ο} {P : σ → α → σ → List ο → Prop} {s s₁ s₂ : σ}
    {as : List α} {a : α} {os os' : List ο} (h : M.EveryStep P s (as ++ [a]))
    (hExec : M.exec s as = some (s₁, os)) (hStep : M.step s₁ a = some (s₂, os')) :
    P s₁ a s₂ os' := by
  induction as generalizing s os with
  | nil =>
    cases hExec
    rw [List.nil_append, EveryStep, hStep] at h
    exact h.1
  | cons b rest ih =>
    obtain ⟨s₃, os₁, os₂, hFirst, hRest, rfl⟩ := exec_cons_eq_some.mp hExec
    rw [List.cons_append, EveryStep, hFirst] at h
    exact ih h.2 hRest

/-- Run a list of actions and test where it ends. -/
def check (M : Machine σ α ο) (s : σ) (as : List α) (test : σ → List ο → Bool) : Bool :=
  match M.exec s as with
  | some (s', os) => test s' os
  | none => false

theorem exists_of_check {M : Machine σ α ο} {s : σ} {as : List α} {test : σ → List ο → Bool}
    (h : M.check s as test = true) :
    ∃ s' os, M.exec s as = some (s', os) ∧ test s' os = true := by
  rw [check] at h
  split at h
  · rename_i s' os hExec
    exact ⟨s', os, hExec, h⟩
  · cases h

end Machine

end Choreographr.Lib
