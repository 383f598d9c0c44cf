import Picloud.Lib.Steps
import Mathlib.Data.List.Count
import Mathlib.Data.List.TakeDrop
import Mathlib.Data.List.Perm.Basic
import Mathlib.Algebra.BigOperators.Group.List.Basic
import Mathlib.Algebra.GroupWithZero.Nat

/-!
# Pools of concurrent tasks

Any number of calls work on one shared state, each as a task that goes through atomic sections.
`enter` is the local state in which a call starts, `tstep` executes the next section of a task, and
a schedule says when calls arrive and which task goes next. The counting lemmas say how a section
changes the number of tasks in a given kind of local state, and what the tasks hold together.
-/

namespace Lib

/-- A shared state and the tasks that work on it, in order of arrival. -/
structure Pool (S L : Type*) where
  shared : S
  tasks : List L
deriving DecidableEq

namespace Pool

variable {S L C : Type*}

/-- A call arrives, or the task with the given number executes its next section. -/
inductive Act (C : Type*) where
  | call (c : C)
  | step (i : ℕ)
deriving DecidableEq

section

variable (enter : C → L) (tstep : S → L → Option (S × L))

/-- One action; a task without a next section cannot go. -/
def next (p : Pool S L) : Act C → Option (Pool S L)
  | .call c => some ⟨p.shared, p.tasks ++ [enter c]⟩
  | .step i =>
    match p.tasks[i]? with
    | none => none
    | some l =>
      match tstep p.shared l with
      | some (s', l') => some ⟨s', p.tasks.set i l'⟩
      | none => none

variable {enter tstep}

/-- Everything an action can do. -/
theorem next_cases {p p' : Pool S L} {a : Act C} (h : next enter tstep p a = some p') :
    (∃ c, a = .call c ∧ p' = ⟨p.shared, p.tasks ++ [enter c]⟩) ∨
    (∃ i l s' l', a = .step i ∧ p.tasks[i]? = some l ∧ tstep p.shared l = some (s', l') ∧
      p' = ⟨s', p.tasks.set i l'⟩) := by
  cases a with
  | call c => exact Or.inl ⟨c, rfl, (Option.some.inj h).symm⟩
  | step i =>
    rw [next] at h
    split at h
    · cases h
    · next l hl =>
      split at h
      · next s' l' hstep => exact Or.inr ⟨i, l, s', l', rfl, hl, hstep, (Option.some.inj h).symm⟩
      · cases h

end

/-! ## Counting tasks -/

variable {a b : L} {i : ℕ} {l : List L} {enter : C → L} {tstep : S → L → Option (S × L)}

/-- Replacing one task changes a count by what the two tasks contribute. -/
theorem countP_set_add (h : l[i]? = some a) (b : L) (q : L → Bool) :
    (l.set i b).countP q + (q a).toNat = l.countP q + (q b).toNat := by
  obtain ⟨hi, rfl⟩ := List.getElem?_eq_some_iff.mp h
  have hle : (if q l[i] = true then 1 else 0) ≤ l.countP q := List.boole_getElem_le_countP hi
  have hnat : ∀ b : Bool, (if b = true then 1 else 0) = b.toNat := fun b => by cases b <;> rfl
  rw [List.countP_set hi, hnat, hnat]
  rw [hnat] at hle
  omega

/-- After a replacement, a task is the new one or was there before. -/
theorem mem_set_imp (h : a ∈ l.set i b) : a = b ∨ a ∈ l :=
  (List.mem_or_eq_of_mem_set h).symm

/-- After a replacement, a task has its place from before or is the new one. -/
theorem getElem?_set_cases {j : ℕ} (h : (l.set i b)[j]? = some a) :
    (j = i ∧ a = b) ∨ (j ≠ i ∧ l[j]? = some a) := by
  by_cases hij : j = i
  · subst hij
    have hlt : j < (l.set j b).length := (List.getElem?_eq_some_iff.mp h).1
    rw [List.getElem?_set_self (by simpa using hlt)] at h
    exact Or.inl ⟨rfl, (Option.some.inj h).symm⟩
  · rw [List.getElem?_set_ne (Ne.symm hij)] at h
    exact Or.inr ⟨hij, h⟩

/-- What a replacement does not change of a task, it changes of no task. -/
theorem map_set_of_eq {β : Type*} (h : l[i]? = some a) {f : L → β} (hf : f b = f a) :
    (l.set i b).map f = l.map f := by
  obtain ⟨hi, rfl⟩ := List.getElem?_eq_some_iff.mp h
  rw [List.map_set, hf, ← List.map_set, List.set_getElem_self]

/-- The tasks before and after a given one. -/
theorem split_at (h : l[i]? = some a) :
    l = l.take i ++ a :: l.drop (i + 1) ∧ ∀ b, l.set i b = l.take i ++ b :: l.drop (i + 1) := by
  obtain ⟨hi, rfl⟩ := List.getElem?_eq_some_iff.mp h
  refine ⟨?_, fun b => List.set_eq_take_cons_drop b hi⟩
  rw [← List.drop_eq_getElem_cons hi, List.take_append_drop]

private theorem filterMap_split {β : Type*} (f : L → Option β) (xs ys : List L) (a : L) :
    (xs ++ a :: ys).filterMap f = xs.filterMap f ++ ((f a).toList ++ ys.filterMap f) := by
  rw [List.filterMap_append]
  cases ha : f a <;> simp [ha]

/-- Replacing one task changes what the tasks hold, as a multiset, by what the two tasks hold. -/
theorem filterMap_set_perm {β : Type*} (h : l[i]? = some a) (b : L) (f : L → Option β) :
    ((f a).toList ++ (l.set i b).filterMap f).Perm ((f b).toList ++ l.filterMap f) := by
  obtain ⟨hsplit, hset⟩ := split_at h
  have hsame : l.filterMap f =
      (l.take i).filterMap f ++ ((f a).toList ++ (l.drop (i + 1)).filterMap f) := by
    rw [← filterMap_split, ← hsplit]
  rw [hset, filterMap_split, hsame]
  -- both sides are the three parts around the task, in another order
  refine (List.perm_append_comm_assoc _ _ _).trans
    (List.Perm.trans ?_ (List.perm_append_comm_assoc _ _ _).symm)
  exact (List.perm_append_comm_assoc _ _ _).append_left _

/-- Some task after a replacement: the new one, or one of the others. -/
theorem any_set (h : l[i]? = some a) (b : L) (q : L → Bool) :
    (l.set i b).any q = (q b || (l.eraseIdx i).any q) := by
  rw [(List.set_perm_cons_eraseIdx (List.getElem?_eq_some_iff.mp h).1 b).any_eq, List.any_cons]

theorem any_eraseIdx (h : l[i]? = some a) (q : L → Bool) :
    l.any q = (q a || (l.eraseIdx i).any q) := by
  obtain ⟨hi, rfl⟩ := List.getElem?_eq_some_iff.mp h
  rw [← any_set h l[i] q, List.set_getElem_self]

/-! ## Potentials -/

/-- Replacing one task changes a sum by what the two tasks contribute. -/
theorem sum_set_add {M : Type*} [AddCommMonoid M] (h : l[i]? = some a) (b : L) (load : L → M) :
    ((l.set i b).map load).sum + load a = (l.map load).sum + load b := by
  obtain ⟨hsplit, hset⟩ := split_at h
  have hsum : (l.map load).sum =
      ((l.take i).map load).sum + (load a + ((l.drop (i + 1)).map load).sum) := by
    conv_lhs => rw [hsplit]
    simp
  rw [hset, hsum, List.map_append, List.map_cons, List.sum_append, List.sum_cons]
  ac_rfl

/-- A section that keeps what the state and its task hold together keeps what the state and all tasks hold. -/
theorem held_set {M : Type*} [AddCancelCommMonoid M] (h : l[i]? = some a) {load : L → M} {w w' : M}
    (hsection : w' + load b = w + load a) :
    w' + ((l.set i b).map load).sum = w + (l.map load).sum := by
  have hset := sum_set_add h b load
  apply add_right_cancel (b := load b + load a)
  calc w' + ((l.set i b).map load).sum + (load b + load a)
      = w' + load b + (((l.set i b).map load).sum + load a) := by ac_rfl
    _ = w + load a + ((l.map load).sum + load b) := by rw [hsection, hset]
    _ = w + (l.map load).sum + (load b + load a) := by ac_rfl

/-- What a call brings along. -/
def Act.grant (grant : C → ℕ) : Act C → ℕ
  | .call c => grant c
  | .step _ => 0

/-- What the shared state and the tasks hold together grows only by what calls bring along. -/
theorem potential_le (weight : S → ℕ) (load : L → ℕ) (grant : C → ℕ)
    (hcall : ∀ c, load (enter c) ≤ grant c)
    (hstep : ∀ s l s' l', tstep s l = some (s', l') → weight s' + load l' ≤ weight s + load l) :
    ∀ (as : List (Act C)) (p p' : Pool S L), runSteps (next enter tstep) p as = some p' →
      weight p'.shared + (p'.tasks.map load).sum ≤
        weight p.shared + (p.tasks.map load).sum + (as.map (Act.grant grant)).sum := by
  intro as
  induction as with
  | nil =>
    intro p p' h
    cases h
    simp
  | cons a as ih =>
    intro p p' h
    rw [runSteps_cons, Option.bind_eq_some_iff] at h
    obtain ⟨t, ht, h⟩ := h
    have hrest := ih t p' h
    have hfirst : weight t.shared + (t.tasks.map load).sum ≤
        weight p.shared + (p.tasks.map load).sum + a.grant grant := by
      rcases next_cases ht with ⟨c, rfl, rfl⟩ | ⟨i, l, s', l', rfl, hl, hts, rfl⟩
      · have hload := hcall c
        simp only [List.map_append, List.sum_append, List.map_cons, List.map_nil, List.sum_cons,
          List.sum_nil, Act.grant]
        omega
      · have hone := hstep p.shared l s' l' hts
        have hsum := sum_set_add hl l' load
        simp only [Act.grant]
        omega
    rw [List.map_cons, List.sum_cons]
    omega

/-- An invariant of the shared state and of every task, where what a task relies on is kept by the
sections of the others; what a task starts with follows from what is known of its call. -/
theorem forall_tasks_of_calls {P : C → Prop} {I : S → Prop} {J : S → L → Prop}
    (hcall : ∀ s c, P c → I s → J s (enter c))
    (hstep : ∀ s l s' l', I s → J s l → tstep s l = some (s', l') → I s' ∧ J s' l')
    (hothers : ∀ s l s' l' m, tstep s l = some (s', l') → J s m → J s' m) (as : List (Act C))
    (p p' : Pool S L) (has : ∀ c, .call c ∈ as → P c) (hI : I p.shared)
    (hJ : ∀ l ∈ p.tasks, J p.shared l) (h : runSteps (next enter tstep) p as = some p') :
    I p'.shared ∧ ∀ l ∈ p'.tasks, J p'.shared l := by
  have hmeet : StepsMeet (next enter tstep) (fun _ a => ∀ c, a = .call c → P c) p as := by
    refine stepsMeet_of_forall _ (fun a ha _ c hc => ?_) p
    subst hc
    exact has c ha
  refine runSteps_invariant (next enter tstep)
    (I := fun p => I p.shared ∧ ∀ l ∈ p.tasks, J p.shared l) ?_ as p p' ⟨hI, hJ⟩ hmeet h
  rintro p a p' ⟨hI, hJ⟩ hP h
  rcases next_cases h with ⟨c, rfl, rfl⟩ | ⟨i, l, s', l', rfl, hl, hts, rfl⟩
  · refine ⟨hI, fun l hl => ?_⟩
    rcases List.mem_append.mp hl with hold | hnew
    · exact hJ l hold
    · rw [List.mem_singleton.mp hnew]
      exact hcall p.shared c (hP c rfl) hI
  · obtain ⟨hI', hJ'⟩ := hstep p.shared l s' l' hI (hJ l (List.mem_of_getElem? hl)) hts
    refine ⟨hI', fun m hm => ?_⟩
    rcases mem_set_imp hm with rfl | hold
    · exact hJ'
    · exact hothers p.shared l s' l' m hts (hJ m hold)

/-- The same for any calls. -/
theorem forall_tasks_invariant {I : S → Prop} {J : S → L → Prop}
    (hcall : ∀ s c, I s → J s (enter c))
    (hstep : ∀ s l s' l', I s → J s l → tstep s l = some (s', l') → I s' ∧ J s' l')
    (hothers : ∀ s l s' l' m, tstep s l = some (s', l') → J s m → J s' m) (as : List (Act C))
    (p p' : Pool S L) (hI : I p.shared) (hJ : ∀ l ∈ p.tasks, J p.shared l)
    (h : runSteps (next enter tstep) p as = some p') :
    I p'.shared ∧ ∀ l ∈ p'.tasks, J p'.shared l :=
  forall_tasks_of_calls (P := fun _ => True) (fun s c _ => hcall s c) hstep hothers as p p'
    (fun _ _ => trivial) hI hJ h

/-! ## One task -/

/-- What the sections of a task keep of it, it has until the end of the schedule. -/
theorem task_invariant {Cond : Pool S L → Act C → Prop} {K : L → Prop}
    (hstep : ∀ p l s' l', Cond p (.step i) → p.tasks[i]? = some l → K l →
      tstep p.shared l = some (s', l') → K l') (as : List (Act C)) (p p' : Pool S L)
    (hp : ∃ l, p.tasks[i]? = some l ∧ K l) (hmeet : StepsMeet (next enter tstep) Cond p as)
    (h : runSteps (next enter tstep) p as = some p') : ∃ l, p'.tasks[i]? = some l ∧ K l := by
  refine runSteps_invariant (next enter tstep)
    (I := fun p => ∃ l, p.tasks[i]? = some l ∧ K l) ?_ as p p' hp hmeet h
  rintro p a p' ⟨l, hl, hK⟩ hcond h
  rcases next_cases h with ⟨c, rfl, rfl⟩ | ⟨j, m, s', m', rfl, hm, hts, rfl⟩
  · exact ⟨l, List.getElem?_append_left (List.getElem?_eq_some_iff.mp hl).1 ▸ hl, hK⟩
  · by_cases hij : j = i
    · subst hij
      obtain rfl : m = l := Option.some.inj (hm.symm.trans hl)
      exact ⟨m', List.getElem?_set_self (List.getElem?_eq_some_iff.mp hl).1,
        hstep p m s' m' hcond hl hK hts⟩
    · exact ⟨l, (List.getElem?_set_ne hij).trans hl, hK⟩

/-! ## A task alone -/

/-- What no section changes of the outcome of its task, a task executed alone arrives at. -/
theorem finish_of_alone {R : Type*} {finish : S → L → R}
    (hstep : ∀ s l s' l', tstep s l = some (s', l') → finish s' l' = finish s l) {k : ℕ} {s : S}
    {l : L} {p : Pool S L}
    (hrun : runSteps (next enter tstep) ⟨s, [l]⟩ (List.replicate k (.step 0)) = some p) :
    ∃ l', p.tasks = [l'] ∧ finish p.shared l' = finish s l := by
  induction k generalizing s l with
  | zero =>
    obtain rfl := Option.some.inj hrun
    exact ⟨l, rfl, rfl⟩
  | succ k ih =>
    rw [List.replicate_succ, runSteps_cons, Option.bind_eq_some_iff] at hrun
    obtain ⟨p₁, hnext, hrun⟩ := hrun
    obtain ⟨c, hc, -⟩ | ⟨i, u, s', l', hi, hu, hts, rfl⟩ := next_cases hnext
    · cases hc
    obtain rfl : 0 = i := Act.step.inj hi
    obtain rfl : l = u := Option.some.inj hu
    obtain ⟨m, hm, hfin⟩ := ih hrun
    exact ⟨m, hm, hfin.trans (hstep s l s' l' hts)⟩

end Pool

end Lib
