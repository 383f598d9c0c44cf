import Picloud.Lib.Steps
import Picloud.Rdf.Projector

/-!
# Facts of the default graph, and runs of projections that succeed

What a query reads about a resource in the default graph: the values of its platform properties. The
lemmas tell what the primitives of the projector do to one fact. A replay that succeeds is followed by a
simulation: each event is projected without an error.
-/

namespace Picloud

open Lib

/-- The resource has the value for the property in the default graph. -/
def Has (s : Store) (iri name : String) (o : Term) : Prop := quad iri (pc name) o .default ∈ s

instance (s : Store) (iri name : String) (o : Term) : Decidable (Has s iri name o) :=
  inferInstanceAs (Decidable (_ ∈ s))

/-- The resource is of the class in the default graph. -/
def IsA (s : Store) (x : Subject) (className : String) : Prop :=
  ⟨x, ⟨rdfType⟩, picloudTerm className, .default⟩ ∈ s

section Facts

variable {s : Store} {iri iri' name name' className : String} {o o' : Term} {x : Subject}

@[simp] theorem has_nil : Has [] iri name o ↔ False := by simp [Has]

@[simp] theorem isA_nil : IsA [] x className ↔ False := by simp [IsA]

@[simp] theorem has_insert :
    Has (s.insert (quad iri' (pc name') o' .default)) iri name o ↔
      Has s iri name o ∨ iri = iri' ∧ name = name' ∧ o = o' := by
  simp [Has, quad]

@[simp] theorem has_insert_type :
    Has (s.insert (quad iri' rdfType o' .default)) iri name o ↔ Has s iri name o := by
  simp [Has, quad]

@[simp] theorem has_clear :
    Has (s.removeIf (valuesOf iri' (pc name') (some .default)).matches) iri name o ↔
      Has s iri name o ∧ ¬ (iri = iri' ∧ name = name') := by
  unfold Has
  rw [Store.mem_removeIf, Bool.eq_false_iff, Ne, valuesOf_matches_iff]
  simp [quad]

@[simp] theorem isA_insert :
    IsA (s.insert (quad iri' (pc name') o' .default)) x className ↔ IsA s x className := by
  simp [IsA, quad]

@[simp] theorem isA_insert_type :
    IsA (s.insert (quad iri' rdfType o' .default)) x className ↔
      IsA s x className ∨ x = .named ⟨iri'⟩ ∧ picloudTerm className = o' := by
  simp [IsA, quad]

@[simp] theorem isA_clear :
    IsA (s.removeIf (valuesOf iri' (pc name') (some .default)).matches) x className ↔
      IsA s x className := by
  unfold IsA
  rw [Store.mem_removeIf, Bool.eq_false_iff, Ne, valuesOf_matches_iff]
  simp

end Facts

/-! ## What the primitives insert and remove -/

section Operations

variable {subject predicate object context : String} {o : Term} {q : Quad} {p : Pattern}

@[simp] theorem put_mem_insertTriple :
    Op.put q ∈ insertTriple subject predicate o ↔ q = quad subject predicate o .default := by
  simp [insertTriple]

@[simp] theorem put_mem_insertNode :
    Op.put q ∈ insertNode subject predicate context object ↔
      q = quad subject predicate (node object) .default := by
  simp [insertNode]

@[simp] theorem del_notMem_insertTriple : Op.del p ∉ insertTriple subject predicate o := by
  simp [insertTriple]

@[simp] theorem del_notMem_insertNode : Op.del p ∉ insertNode subject predicate context object := by
  simp [insertNode]

/-- A link that is left out when its object is no IRI. -/
theorem mem_tryInsertNode {env : ProjectorEnv} {op : Op} :
    op ∈ tryInsertNode env subject predicate object ↔
      env.checks.iri object = none ∧ op ∈ insertTriple subject predicate (node object) := by
  rw [tryInsertNode]
  cases env.checks.iri object <;> simp

theorem allOps_tryInsertNode {env : ProjectorEnv} {P : Op → Prop}
    (h : AllOps P (insertTriple subject predicate (node object))) :
    AllOps P (tryInsertNode env subject predicate object) :=
  fun op hop => h op (mem_tryInsertNode.mp hop).2

end Operations

/-! ## Projections that succeed -/

section Success

variable {env : ProjectorEnv} {event : EventEnvelope}

/-- A script of one step. -/
theorem projectStore_ops (s : Store) {l : List Op} (hscript : script env event = [.ops l]) :
    ((projectStore env s event).1 = .ok () ↔ (runOps env.checks s l).1 = .ok ()) ∧
      projected env s event = (runOps env.checks s l).2 := by
  rw [projected_eq, hscript, runScript_singleton]
  refine ⟨?_, rfl⟩
  unfold projectStore
  rw [hscript, runScript_singleton, Step.run]
  rcases runOps env.checks s l with ⟨_ | ⟨⟨⟩⟩, t⟩ <;> simp

/-- A script that reads the store after its first step. -/
theorem projectStore_ops_read (s : Store) {l : List Op} {f : Store → List Op}
    (hscript : script env event = [.ops l, .read f]) (hok : (projectStore env s event).1 = .ok ()) :
    (runOps env.checks s l).1 = .ok () ∧
      (runOps env.checks (runOps env.checks s l).2 (f (runOps env.checks s l).2)).1 = .ok () ∧
      projected env s event =
        (runOps env.checks (runOps env.checks s l).2 (f (runOps env.checks s l).2)).2 := by
  rw [projected_eq, hscript, runScript, Step.run]
  unfold projectStore at hok
  rw [hscript, runScript, Step.run] at hok
  rcases hl : runOps env.checks s l with ⟨_ | ⟨⟨⟩⟩, t⟩
  · rw [hl] at hok
    cases hok
  · rw [hl] at hok
    simp only [runScript_singleton, Step.run] at hok ⊢
    refine ⟨trivial, ?_, trivial⟩
    rcases hf : runOps env.checks t (f t) with ⟨_ | ⟨⟨⟩⟩, u⟩
    · rw [hf] at hok
      cases hok
    · rfl

/-- A projection succeeds when its script does. -/
theorem runScript_ok_of_projectStore {s : Store} (hok : (projectStore env s event).1 = .ok ()) :
    (runScript env.checks s (script env event)).1 = .ok () := by
  unfold projectStore at hok
  rcases hrun : runScript env.checks s (script env event) with ⟨_ | ⟨⟨⟩⟩, t⟩
  · rw [hrun] at hok
    cases hok
  · rfl

variable {p p' : Projector} {events : List EventEnvelope}

/-- A projection that succeeds, taken apart. -/
theorem Projector.project_ok (h : p.project env event = (.ok (), p')) :
    (projectStore env p.store event).1 = .ok () ∧ p'.store = projected env p.store event := by
  have hstore : (p.project env event).2.store = projected env p.store event :=
    Projector.store_project p event
  rw [h] at hstore
  refine ⟨?_, hstore⟩
  unfold Projector.project at h
  split at h
  · next hok => rw [hok]
  · cases h

/-- A replay whose projections all succeed. -/
theorem Projector.replayLoop_of_ok (h : ∀ e ∈ events, ∀ s, (projectStore env s e).1 = .ok ())
    (p : Projector) :
    p.replayLoop env events = (.ok (), p.projectEach env events) := by
  induction events generalizing p with
  | nil => rfl
  | cons event events ih =>
    have hok := h event List.mem_cons_self p.store
    have hproject : p.project env event = (.ok (), (p.project env event).2) := by
      unfold Projector.project
      split
      · rfl
      · next herror => simp [herror] at hok
    rw [Projector.replayLoop, hproject]
    exact ih (fun e he => h e (List.mem_cons_of_mem event he)) _

/-- A relation between the store and an abstract state that is kept by every projection that succeeds, under a
condition on the abstract state, holds after a successful replay. -/
theorem Projector.replayLoop_simulation {α : Type*} {next : α → EventEnvelope → α}
    {C : α → EventEnvelope → Prop} {R : α → Store → Prop}
    (hstep : ∀ a s, ∀ e ∈ events, R a s → C a e → (projectStore env s e).1 = .ok () →
      R (next a e) (projected env s e)) (hrun : p.replayLoop env events = (.ok (), p')) {a : α}
    (hmeet : StepsMeet (fun a e => some (next a e)) C a events) (h : R a p.store) :
    R (events.foldl next a) p'.store := by
  induction events generalizing a p with
  | nil =>
    cases hrun
    exact h
  | cons event events ih =>
    obtain ⟨hfirst, hrest⟩ := hmeet
    rw [Projector.replayLoop] at hrun
    split at hrun
    · next p₁ hproject =>
      obtain ⟨hok, hstore⟩ := Projector.project_ok hproject
      refine ih (fun a s e he => hstep a s e (List.mem_cons_of_mem event he)) hrun hrest ?_
      rw [hstore]
      exact hstep a p.store event List.mem_cons_self h hfirst hok
    · cases hrun

/-- A relation between the store and the events so far. -/
theorem Projector.replayLoop_history {R : List EventEnvelope → Store → Prop}
    (hstep : ∀ h s, ∀ e ∈ events, R h s → (projectStore env s e).1 = .ok () → R (h ++ [e]) (projected env s e))
    (hrun : p.replayLoop env events = (.ok (), p')) (h : R [] p.store) :
    R events p'.store := by
  have hmeet : StepsMeet (fun h e => some (h ++ [e])) (fun _ _ => True) [] events :=
    stepsMeet_of_forall _ (fun _ _ _ => trivial) _
  have hafter := Projector.replayLoop_simulation (fun h s e he hs _ hok => hstep h s e he hs hok) hrun hmeet h
  rwa [List.foldl_append_eq_append (f := fun e => [e]), List.nil_append, ← List.flatMap_def,
    List.flatMap_singleton'] at hafter

end Success

end Picloud
