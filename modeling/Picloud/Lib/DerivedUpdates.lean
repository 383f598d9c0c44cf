import Picloud.Lib.StoreScript

/-!
# The updates that a script derives from a store

A script may compute its operations from the store it meets. What it derives there, `deriveUpdates`, is
a list of fixed operations, which can be applied to another store. On the store it is derived from it does
what the script does (`mem_runOps_deriveUpdates`).
-/

namespace Lib

/-- An overwriting update of stores with the same elements. -/
theorem Overwrites.mem_congr {α : Type*} {f : List α → List α} (hf : Overwrites f) {s t : List α}
    (h : ∀ a, a ∈ s ↔ a ∈ t) (a : α) : a ∈ f s ↔ a ∈ f t := by
  obtain ⟨keep, add, hf⟩ := hf
  rw [hf, hf, h]

variable (C : TermChecks)

/-- The operations that turn one store into another. -/
def changes (s s' : Store) : List Op :=
  (s.filter (· ∉ s')).map (fun q => .del q.pattern) ++ (s'.filter (· ∉ s)).map .put

/-- The operations that a step derives from the store. -/
def Step.derive (s : Store) : Step → List Op
  | .ops l => l
  | .read f => f s
  | .update f => changes s (f s)

/-- The operations that a script derives from the store, step by step. -/
def deriveUpdates : Store → Script → List Op
  | _, [] => []
  | s, step :: steps => step.derive s ++ deriveUpdates (step.run C s).2 steps

variable {C} {s s' t : Store} {q : Quad}

theorem runOps_changes : (runOps C s (changes s s')).1 = .ok () ∧
    ∀ q, q ∈ (runOps C s (changes s s')).2 ↔ q ∈ s' := by
  have hok : (runOps C s (changes s s')).1 = .ok () := by
    refine runOps_ok_of_error (fun op hop => ?_) s
    rcases List.mem_append.mp hop with hop | hop
    all_goals
      obtain ⟨q, -, rfl⟩ := List.mem_map.mp hop
      rfl
  refine ⟨hok, fun q => ?_⟩
  rw [changes, mem_runOps_append hok (by simp) (by simp)]
  constructor
  · rintro (⟨hq, hkeep⟩ | hput)
    · by_contra hnot
      have hdel := hkeep q.pattern (List.mem_map.mpr ⟨q, by simp [hq, hnot], rfl⟩)
      rw [Quad.pattern_matches.mpr rfl] at hdel
      cases hdel
    · obtain ⟨q', hq', heq⟩ := List.mem_map.mp hput
      cases heq
      exact (List.mem_filter.mp hq').1
  · intro hq
    by_cases hold : q ∈ s
    · refine Or.inl ⟨hold, fun p hp => ?_⟩
      obtain ⟨r, hr, heq⟩ := List.mem_map.mp hp
      cases heq
      rw [Bool.eq_false_iff, Ne, Quad.pattern_matches]
      rintro rfl
      exact of_decide_eq_true (List.mem_filter.mp hr).2 hq
    · exact Or.inr (List.mem_map.mpr ⟨q, by simp [hq, hold], rfl⟩)

/-- What a step derives does the same on a store with the same quads. -/
theorem runOps_derive (h : ∀ q, q ∈ t ↔ q ∈ s) (step : Step) :
    (runOps C t (step.derive s)).1 = (step.run C s).1 ∧
      ∀ q, q ∈ (runOps C t (step.derive s)).2 ↔ q ∈ (step.run C s).2 := by
  have hfixed : ∀ l, (runOps C t l).1 = (runOps C s l).1 ∧
      ∀ q, q ∈ (runOps C t l).2 ↔ q ∈ (runOps C s l).2 := fun l =>
    ⟨by rw [runOps_eq, runOps_eq], (overwrites_runOps C l).mem_congr h⟩
  cases step with
  | ops l => exact hfixed l
  | read f => exact hfixed (f s)
  | update f =>
    obtain ⟨hok, hmem⟩ := @runOps_changes C s (f s)
    obtain ⟨hsame, hquads⟩ := hfixed (changes s (f s))
    exact ⟨hsame.trans hok, fun q => (hquads q).trans (hmem q)⟩

/-- **What a script derives from a store does there what the script does.** -/
theorem mem_runOps_deriveUpdates (h : ∀ q, q ∈ t ↔ q ∈ s) (script : Script) (q : Quad) :
    q ∈ (runOps C t (deriveUpdates C s script)).2 ↔ q ∈ (runScript C s script).2 := by
  induction script generalizing s t with
  | nil => exact h q
  | cons step steps ih =>
    obtain ⟨hsame, hquads⟩ := runOps_derive (C := C) h step
    rw [deriveUpdates, runOps_append, runScript]
    rcases hs : step.run C s with ⟨r, s'⟩
    rcases ht : runOps C t (step.derive s) with ⟨r', t'⟩
    rw [hs, ht] at hsame hquads
    obtain rfl : r' = r := hsame
    cases r' with
    | ok u => exact ih hquads
    | error e => exact hquads q

end Lib
