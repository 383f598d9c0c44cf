import Mathlib.Data.List.Basic
import Mathlib.Tactic.Common

/-!
# Latches

A latch holds the keys that were read as set, and reports a key when it begins or ceases to be held. The reports
of a key alternate. What is held is what the last round reads as set, exactly when every key that one round reads
as set is read again in the next.
-/

namespace Lib

section Latch

variable {α : Type*} [DecidableEq α]

/-- One reading of a key: whether it is set. -/
def latchStep (held : List α) (r : α × Bool) : List α × List (α × Bool) :=
  if r.2 then if r.1 ∈ held then (held, []) else (r.1 :: held, [r])
  else if r.1 ∈ held then (held.filter (· ≠ r.1), [r]) else (held, [])

/-- A round of readings, one after the other. -/
def latch (held : List α) : List (α × Bool) → List α × List (α × Bool)
  | [] => (held, [])
  | r :: rs => ((latch (latchStep held r).1 rs).1, (latchStep held r).2 ++ (latch (latchStep held r).1 rs).2)

/-- Rounds, one after the other. -/
def latchRun (held : List α) : List (List (α × Bool)) → List α × List (α × Bool)
  | [] => (held, [])
  | rs :: rounds => ((latchRun (latch held rs).1 rounds).1, (latch held rs).2 ++ (latchRun (latch held rs).1 rounds).2)

theorem latch_append (held : List α) (rs rs' : List (α × Bool)) :
    latch held (rs ++ rs') = ((latch (latch held rs).1 rs').1, (latch held rs).2 ++ (latch (latch held rs).1 rs').2) := by
  induction rs generalizing held with
  | nil => rfl
  | cons r rs ih => rw [List.cons_append, latch, ih, latch, List.append_assoc]

/-! ## Reports alternate -/

/-- The reports of a key. -/
def reportsOf (p : α) (reports : List (α × Bool)) : List Bool := (reports.filter (·.1 = p)).map Prod.snd

/-- Each of the values differs from the one before it. -/
def Alternates (b : Bool) : List Bool → Prop
  | [] => True
  | c :: l => c = (!b) ∧ Alternates c l

omit [DecidableEq α] in
theorem alternates_append {b : Bool} {l l' : List Bool} :
    Alternates b (l ++ l') ↔ Alternates b l ∧ Alternates (l.getLastD b) l' := by
  induction l generalizing b with
  | nil => simp [Alternates]
  | cons c l ih =>
    rw [List.cons_append, Alternates, Alternates, ih, List.getLastD_cons, and_assoc]

/-- The reports of a key lead from whether it is held before to whether it is held afterwards. -/
def Tracks (p : α) (held : List α) (out : List α × List (α × Bool)) : Prop :=
  Alternates (decide (p ∈ held)) (reportsOf p out.2) ∧
    decide (p ∈ out.1) = (reportsOf p out.2).getLastD (decide (p ∈ held))

theorem reportsOf_append (p : α) (l l' : List (α × Bool)) : reportsOf p (l ++ l') = reportsOf p l ++ reportsOf p l' := by
  rw [reportsOf, List.filter_append, List.map_append]
  rfl

variable {held : List α} {p : α} {rs : List (α × Bool)}

theorem Tracks.append {out out' : List α × List (α × Bool)} (h : Tracks p held out)
    (h' : Tracks p out.1 out') : Tracks p held (out'.1, out.2 ++ out'.2) := by
  obtain ⟨halternates, hheld⟩ := h
  obtain ⟨halternates', hheld'⟩ := h'
  rw [hheld] at halternates' hheld'
  refine ⟨?_, ?_⟩
  · rw [reportsOf_append, alternates_append]
    exact ⟨halternates, halternates'⟩
  · rw [hheld', reportsOf_append]
    simp only [List.getLastD_eq_getLast?, List.getLast?_append]
    cases (reportsOf p out'.2).getLast? <;> simp

theorem tracks_latchStep (p : α) (held : List α) (r : α × Bool) : Tracks p held (latchStep held r) := by
  obtain ⟨q, b⟩ := r
  unfold latchStep Tracks
  by_cases hq : q ∈ held <;> cases b <;> by_cases hp : q = p
  all_goals
    try subst hp
    simp_all [reportsOf, Alternates, eq_comm]

theorem tracks_latch (p : α) (held : List α) (rs : List (α × Bool)) : Tracks p held (latch held rs) := by
  induction rs generalizing held with
  | nil => exact ⟨trivial, rfl⟩
  | cons r rs ih => exact (tracks_latchStep p held r).append (ih _)

/-- **The reports of a key alternate, and a key is held exactly when its last report says so.** -/
theorem tracks_latchRun (p : α) (held : List α) (rounds : List (List (α × Bool))) :
    Tracks p held (latchRun held rounds) := by
  induction rounds generalizing held with
  | nil => exact ⟨trivial, rfl⟩
  | cons rs rounds ih => exact (tracks_latch p held rs).append (ih _)

/-! ## What is held -/

/-- No key is read as both. -/
def Consistent (rs : List (α × Bool)) : Prop := ∀ p, (p, true) ∈ rs → (p, false) ∉ rs

/-- The key is read. -/
def Reads (rs : List (α × Bool)) (p : α) : Prop := (p, true) ∈ rs ∨ (p, false) ∈ rs

theorem mem_latchStep {r : α × Bool} :
    p ∈ (latchStep held r).1 ↔ r = (p, true) ∨ p ∈ held ∧ r ≠ (p, false) := by
  obtain ⟨q, b⟩ := r
  unfold latchStep
  by_cases hq : q ∈ held <;> cases b <;> by_cases hp : q = p
  all_goals
    try subst hp
    simp_all [eq_comm]

/-- After a round the keys are held that are read as set, and those that are not read. -/
theorem mem_latch (h : Consistent rs) :
    p ∈ (latch held rs).1 ↔ (p, true) ∈ rs ∨ p ∈ held ∧ (p, false) ∉ rs := by
  induction rs generalizing held with
  | nil => simp [latch]
  | cons r rs ih =>
    have hrest : Consistent rs := fun p hset hunset => h p (List.mem_cons_of_mem r hset) (List.mem_cons_of_mem r hunset)
    rw [latch, ih hrest, mem_latchStep, List.mem_cons, List.mem_cons]
    have hset : r = (p, true) → (p, false) ∉ rs := fun heq hunset =>
      h p (by simp [heq]) (List.mem_cons_of_mem r hunset)
    by_cases hfirst : r = (p, true)
    · simp [hfirst, hset hfirst]
    · simp only [hfirst, false_or, eq_comm (b := r), not_or, and_assoc]

/-- A key that is read as set stays held if the next round does not read it. -/
theorem mem_latchRun_unread {rs' : List (α × Bool)} (h : Consistent rs) (h' : Consistent rs')
    (hset : (p, true) ∈ rs) (hunread : (p, false) ∉ rs') : p ∈ (latchRun [] [rs, rs']).1 :=
  (mem_latch h').mpr (Or.inr ⟨(mem_latch h).mpr (Or.inl hset), hunread⟩)

/-- After a round what is held is what it reads as set exactly when every key held before is read. -/
theorem forall_mem_latch_iff (h : Consistent rs) :
    (∀ p, p ∈ (latch held rs).1 ↔ (p, true) ∈ rs) ↔ ∀ p ∈ held, Reads rs p := by
  simp only [mem_latch h]
  refine forall_congr' fun p => ?_
  rw [or_iff_left_iff_imp, Reads]
  constructor
  · intro himp hheld
    by_cases hunset : (p, false) ∈ rs
    · exact Or.inr hunset
    · exact Or.inl (himp ⟨hheld, hunset⟩)
  · rintro hreads ⟨hheld, hunset⟩
    exact (hreads hheld).resolve_right hunset

omit [DecidableEq α] in
/-- Every place of a list is the first, or one of the rest. -/
theorem forall_place_cons {β : Type*} {first : β} {rest : List β} {Q : List β → β → Prop} :
    (∀ before b after, first :: rest = before ++ b :: after → Q before b) ↔
      Q [] first ∧ ∀ before b after, rest = before ++ b :: after → Q (first :: before) b := by
  constructor
  · intro h
    refine ⟨h [] first rest rfl, fun before b after heq => ?_⟩
    exact h (first :: before) b after (by rw [heq]; rfl)
  · rintro ⟨hfirst, hrest⟩ before b after heq
    cases before with
    | nil =>
      obtain ⟨rfl, -⟩ := List.cons.inj heq
      exact hfirst
    | cons c before =>
      obtain ⟨rfl, hrest'⟩ := List.cons.inj heq
      exact hrest before b after hrest'

omit [DecidableEq α] in
/-- Every two neighbours of a list are the first two, or two of the rest. -/
theorem forall_neighbours_cons {β : Type*} {first : β} {rest : List β} {Q : β → β → Prop} :
    (∀ before b b' after, first :: rest = before ++ b :: b' :: after → Q b b') ↔
      (∀ b ∈ rest.head?, Q first b) ∧ ∀ before b b' after, rest = before ++ b :: b' :: after → Q b b' := by
  constructor
  · intro h
    refine ⟨fun b hb => ?_, fun before b b' after heq => ?_⟩
    · obtain ⟨after, rfl⟩ := List.head?_eq_some_iff.mp hb
      exact h [] first b after rfl
    · exact h (first :: before) b b' after (by rw [heq]; rfl)
  · rintro ⟨hfirst, hrest⟩ before b b' after heq
    cases before with
    | nil =>
      obtain ⟨rfl, rfl⟩ := List.cons.inj heq
      exact hfirst b' rfl
    | cons c before =>
      obtain ⟨rfl, hrest'⟩ := List.cons.inj heq
      exact hrest before b b' after hrest'

/-- **What is held is what the last round reads as set, after every round, exactly when every key that is held is
read in the next round.** -/
theorem held_iff {rounds : List (List (α × Bool))} (hconsistent : ∀ rs ∈ rounds, Consistent rs) (held : List α) :
    (∀ before rs after, rounds = before ++ rs :: after → ∀ p,
        p ∈ (latchRun held (before ++ [rs])).1 ↔ (p, true) ∈ rs) ↔
      (∀ rs ∈ rounds.head?, ∀ p ∈ held, Reads rs p) ∧
        ∀ before rs rs' after, rounds = before ++ rs :: rs' :: after → ∀ p, (p, true) ∈ rs → Reads rs' p := by
  induction rounds generalizing held with
  | nil => simp
  | cons first rounds ih =>
    obtain ⟨hfirst, hrest⟩ := List.forall_mem_cons.mp hconsistent
    rw [forall_place_cons (Q := fun before rs => ∀ p, p ∈ (latchRun held (before ++ [rs])).1 ↔ (p, true) ∈ rs),
      forall_neighbours_cons (Q := fun rs rs' => ∀ p, (p, true) ∈ rs → Reads rs' p)]
    change (∀ p, p ∈ (latch held first).1 ↔ (p, true) ∈ first) ∧ _ ↔ _
    have hnext := ih hrest (latch held first).1
    change (∀ before b after, rounds = before ++ b :: after → ∀ p,
      p ∈ (latchRun held (first :: before ++ [b])).1 ↔ (p, true) ∈ b) ↔ _ at hnext
    rw [hnext, forall_mem_latch_iff hfirst]
    simp only [List.head?_cons, Option.mem_some_iff, forall_eq']
    refine and_congr_right fun hreads => and_congr_left fun _ => ?_
    have hheld := (forall_mem_latch_iff hfirst).mpr hreads
    simp only [hheld]

end Latch

end Lib
