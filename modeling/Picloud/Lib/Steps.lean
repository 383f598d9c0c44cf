import Mathlib.Data.List.Basic
import Mathlib.Tactic.Common

/-!
# Schedules of a partial step function

A system is a step function `σ → α → Option σ`: `none` says that the action is not enabled.
`runSteps` executes a schedule, `StepsMeet` says that every action of a schedule meets a
condition in the state it is taken in, and `runSteps_invariant` is the induction that carries an
invariant along the schedules whose actions meet the condition.
-/

namespace Lib

variable {σ α : Type*} (step : σ → α → Option σ)

/-- Execute a schedule from a state; `none` as soon as one action is not enabled. -/
def runSteps : σ → List α → Option σ
  | s, [] => some s
  | s, a :: as =>
    match step s a with
    | some s' => runSteps s' as
    | none => none

@[simp] theorem runSteps_nil (s : σ) : runSteps step s [] = some s := rfl

theorem runSteps_cons (s : σ) (a : α) (as : List α) :
    runSteps step s (a :: as) = (step s a).bind fun s' => runSteps step s' as := by
  rw [runSteps]
  cases step s a <;> rfl

theorem runSteps_append (s : σ) (as bs : List α) :
    runSteps step s (as ++ bs) = (runSteps step s as).bind fun s' => runSteps step s' bs := by
  induction as generalizing s with
  | nil => rfl
  | cons a as ih =>
    rw [List.cons_append, runSteps_cons, runSteps_cons]
    cases step s a with
    | none => rfl
    | some s' => exact ih s'

theorem runSteps_singleton (s : σ) (a : α) : runSteps step s [a] = step s a := by
  rw [runSteps]
  cases step s a <;> rfl

/-- A step function that is always enabled is folded over the schedule. -/
theorem runSteps_some (f : σ → α → σ) (s : σ) (as : List α) :
    runSteps (fun s a => some (f s a)) s as = some (as.foldl f s) := by
  induction as generalizing s with
  | nil => rfl
  | cons a as ih => exact ih (f s a)

/-- Every action of the schedule meets `C` in the state in which it is taken. -/
def StepsMeet (C : σ → α → Prop) : σ → List α → Prop
  | _, [] => True
  | s, a :: as => C s a ∧ match step s a with
    | some s' => StepsMeet C s' as
    | none => True

variable {C D : σ → α → Prop} {s : σ} {as : List α} {I : σ → Prop}

theorem stepsMeet_singleton {a : α} :
    StepsMeet step C s [a] ↔ C s a := by
  rw [StepsMeet]
  cases step s a <;> simp [StepsMeet]

theorem stepsMeet_append {bs : List α} :
    StepsMeet step C s (as ++ bs) ↔
      StepsMeet step C s as ∧ ∀ t, runSteps step s as = some t → StepsMeet step C t bs := by
  induction as generalizing s with
  | nil => simp [StepsMeet]
  | cons a as ih =>
    rw [List.cons_append, StepsMeet, StepsMeet, runSteps_cons, and_assoc]
    cases step s a with
    | none => simp
    | some t => exact and_congr_right fun _ => ih

/-- A stronger condition. -/
theorem StepsMeet.mono (h : ∀ s a, C s a → D s a) (hmeet : StepsMeet step C s as) :
    StepsMeet step D s as := by
  induction as generalizing s with
  | nil => trivial
  | cons a as ih =>
    refine ⟨h s a hmeet.1, ?_⟩
    have hrest := hmeet.2
    cases hs : step s a with
    | none => trivial
    | some t =>
      rw [hs] at hrest
      exact ih hrest

/-- Two conditions at once. -/
theorem StepsMeet.and (hC : StepsMeet step C s as) (hD : StepsMeet step D s as) :
    StepsMeet step (fun s a => C s a ∧ D s a) s as := by
  induction as generalizing s with
  | nil => trivial
  | cons a as ih =>
    refine ⟨⟨hC.1, hD.1⟩, ?_⟩
    have hCrest := hC.2
    have hDrest := hD.2
    cases ht : step s a with
    | none => trivial
    | some t =>
      rw [ht] at hCrest hDrest
      exact ih hCrest hDrest

/-- Along an invariant, one condition on the actions gives another. -/
theorem StepsMeet.of_invariant (hstep : ∀ s a s', I s → C s a → step s a = some s' → I s')
    (h : ∀ s a, I s → C s a → D s a) (hs : I s) (hmeet : StepsMeet step C s as) :
    StepsMeet step D s as := by
  induction as generalizing s with
  | nil => trivial
  | cons a as ih =>
    refine ⟨h s a hs hmeet.1, ?_⟩
    have hrest := hmeet.2
    cases ht : step s a with
    | none => trivial
    | some t =>
      rw [ht] at hrest
      exact ih (hstep s a t hs hmeet.1 ht) hrest

/-- A condition that the actions meet in every state. -/
theorem stepsMeet_of_forall (h : ∀ a ∈ as, ∀ s, C s a) (s : σ) :
    StepsMeet step C s as := by
  induction as generalizing s with
  | nil => trivial
  | cons a as ih =>
    refine ⟨h a List.mem_cons_self s, ?_⟩
    cases step s a with
    | none => trivial
    | some s' => exact ih (fun b hb => h b (List.mem_cons_of_mem a hb)) s'

/-- The condition on a schedule can be tested when it can be tested on each action. -/
instance StepsMeet.decidable (C : σ → α → Prop) [∀ s a, Decidable (C s a)] :
    (s : σ) → (as : List α) → Decidable (StepsMeet step C s as)
  | _, [] => isTrue trivial
  | s, a :: as =>
    match h : step s a with
    | some s' =>
      have := StepsMeet.decidable C s' as
      decidable_of_iff (C s a ∧ StepsMeet step C s' as) (by rw [StepsMeet, h])
    | none => decidable_of_iff (C s a) (by rw [StepsMeet, h]; simp)

/-- A property kept by every action that meets `C` holds at the end of every schedule whose
actions meet `C`. -/
theorem runSteps_invariant (hstep : ∀ s a s', I s → C s a → step s a = some s' → I s') :
    ∀ (as : List α) (s s' : σ), I s → StepsMeet step C s as →
      runSteps step s as = some s' → I s' := by
  intro as
  induction as with
  | nil =>
    intro s s' hs _ hrun
    rw [runSteps_nil, Option.some.injEq] at hrun
    exact hrun ▸ hs
  | cons a as ih =>
    intro s s' hs hmeet hrun
    rw [runSteps_cons, Option.bind_eq_some_iff] at hrun
    obtain ⟨t, ht, hrun⟩ := hrun
    rw [StepsMeet, ht] at hmeet
    exact ih t s' (hstep s a t hs hmeet.1 ht) hmeet.2 hrun

/-- The unconditional case: a property kept by every action holds at the end of every schedule. -/
theorem runSteps_preserves (hstep : ∀ s a s', I s → step s a = some s' → I s') :
    ∀ (as : List α) (s s' : σ), I s → runSteps step s as = some s' → I s' := by
  intro as
  induction as with
  | nil =>
    intro s s' hs hrun
    rw [runSteps_nil, Option.some.injEq] at hrun
    exact hrun ▸ hs
  | cons a as ih =>
    intro s s' hs hrun
    rw [runSteps_cons, Option.bind_eq_some_iff] at hrun
    obtain ⟨t, ht, hrun⟩ := hrun
    exact ih t s' (hstep s a t hs ht) hrun

/-! ## Replies -/

section Replies

variable {τ ρ : Type*}

/-- What the calls of a run return. -/
def replies (act : σ → α → σ × ρ) : σ → List α → List ρ
  | _, [] => []
  | s, a :: as => (act s a).2 :: replies act (act s a).1 as

/-- Calls that keep a relation between two systems, and then return the same, do so in a whole run. -/
theorem replies_eq_of_simulation {act : σ → α → σ × ρ} {spec : τ → α → τ × ρ} {R : τ → σ → Prop}
    {C : τ → α → Prop}
    (hstep : ∀ t s a, R t s → C t a → R (spec t a).1 (act s a).1 ∧ (act s a).2 = (spec t a).2)
    {as : List α} {t : τ} {s : σ} (h : R t s)
    (hmeet : StepsMeet (fun t a => some (spec t a).1) C t as) :
    replies act s as = replies spec t as := by
  induction as generalizing t s with
  | nil => rfl
  | cons a as ih =>
    obtain ⟨hkept, hsame⟩ := hstep t s a h hmeet.1
    rw [replies, replies, hsame, ih hkept hmeet.2]

end Replies

/-- Actions that keep a relation to a second run can be left out of it. -/
theorem runSteps_filter_of_simulation {step : σ → α → Option σ} {silent : α → Bool}
    {R : σ → σ → Prop}
    (hsilent : ∀ s a s' t, silent a = true → C s a → R s t → step s a = some s' → R s' t)
    (hstep : ∀ s a s' t, silent a = false → R s t → step s a = some s' →
      ∃ t', step t a = some t' ∧ R s' t') {s' t : σ} (h : R s t) (hmeet : StepsMeet step C s as)
    (hrun : runSteps step s as = some s') :
    ∃ t', runSteps step t (as.filter (!silent ·)) = some t' ∧ R s' t' := by
  induction as generalizing s t with
  | nil => exact ⟨t, rfl, Option.some.inj hrun ▸ h⟩
  | cons a as ih =>
    rw [runSteps_cons, Option.bind_eq_some_iff] at hrun
    obtain ⟨s₁, hs₁, hrun⟩ := hrun
    rw [StepsMeet, hs₁] at hmeet
    cases hsort : silent a with
    | true =>
      rw [List.filter_cons_of_neg (by simp [hsort])]
      exact ih (hsilent s a s₁ t hsort hmeet.1 h hs₁) hmeet.2 hrun
    | false =>
      obtain ⟨t₁, ht₁, hkept⟩ := hstep s a s₁ t hsort h hs₁
      rw [List.filter_cons_of_pos (by simp [hsort]), runSteps_cons, ht₁]
      exact ih hkept hmeet.2 hrun

end Lib
