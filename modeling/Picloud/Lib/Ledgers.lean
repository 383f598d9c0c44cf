import Picloud.Lib.Steps
import Mathlib.Algebra.BigOperators.Group.List.Basic
import Mathlib.Algebra.Order.Monoid.Defs

/-!
# Ledgers

A ledger says what a state holds, and what each action brings along. If no action makes more of it, then a run ends
with at most what it began with and what its actions brought; and with all of it exactly when no action lost any.
-/

namespace Lib

variable {σ α M : Type*} {step : σ → α → Option σ} {held : σ → M} {brings : α → M}

/-- What every action keeps, a run keeps. -/
theorem held_runSteps [AddCommMonoid M]
    (hstep : ∀ s a s', step s a = some s' → held s' = held s + brings a) :
    ∀ (as : List α) (s s' : σ), runSteps step s as = some s' → held s' = held s + (as.map brings).sum := by
  intro as
  induction as with
  | nil =>
    intro s s' h
    obtain rfl := Option.some.inj h
    simp
  | cons a as ih =>
    intro s s' h
    rw [runSteps_cons, Option.bind_eq_some_iff] at h
    obtain ⟨t, ht, h⟩ := h
    rw [ih t s' h, hstep s a t ht, List.map_cons, List.sum_cons, add_assoc]

/-- What actions can only lose, a run has kept exactly when each of its actions has. -/
theorem held_runSteps_le [AddCommMonoid M] [PartialOrder M] [IsOrderedCancelAddMonoid M] {C : σ → α → Prop}
    (hle : ∀ s a s', step s a = some s' → held s' ≤ held s + brings a)
    (heq : ∀ s a s', step s a = some s' → (held s' = held s + brings a ↔ C s a)) :
    ∀ (as : List α) (s s' : σ), runSteps step s as = some s' →
      held s' ≤ held s + (as.map brings).sum ∧
        (held s' = held s + (as.map brings).sum ↔ StepsMeet step C s as) := by
  intro as
  induction as with
  | nil =>
    intro s s' h
    obtain rfl := Option.some.inj h
    simp [StepsMeet]
  | cons a as ih =>
    intro s s' h
    rw [runSteps_cons, Option.bind_eq_some_iff] at h
    obtain ⟨t, ht, h⟩ := h
    obtain ⟨hrest, hrestEq⟩ := ih t s' h
    have hfirst : held t + (as.map brings).sum ≤ held s + brings a + (as.map brings).sum :=
      add_le_add_left (hle s a t ht) _
    rw [List.map_cons, List.sum_cons, ← add_assoc, StepsMeet, ht]
    refine ⟨hrest.trans hfirst, ?_⟩
    constructor
    · intro hall
      -- nothing was lost at the end, so nothing was lost in between
      have hbetween : held t + (as.map brings).sum = held s + brings a + (as.map brings).sum :=
        le_antisymm hfirst (hall ▸ hrest)
      exact ⟨(heq s a t ht).mp (add_right_cancel hbetween), hrestEq.mp (hall.trans hbetween.symm)⟩
    · rintro ⟨hC, hmeet⟩
      rw [hrestEq.mpr hmeet, (heq s a t ht).mpr hC]

end Lib
