import Picloud.Lib.Steps
import Picloud.Rdf.Vocabulary

/-!
# Inference and the order of events

Loading an ontology closes the store under `rdfs:subClassOf`. The other handlers insert types and
infer nothing, so the default graph stays closed only as long as the classes they use have no
superclass. Removals do no harm: they take the values of another property, or everything about a
subject.
-/

namespace Picloud

open Lib

/-! ## Closure of the default graph -/

/-- The default graph is closed under `rdfs:subClassOf`. -/
def ClosedInDefault (s : Store) : Prop :=
  ∀ (x c : Subject) (d : Term), ⟨c, ⟨rdfsSubclassOf⟩, d, .default⟩ ∈ s →
    ⟨x, ⟨rdfType⟩, c.toTerm, .default⟩ ∈ s → ⟨x, ⟨rdfType⟩, d, .default⟩ ∈ s

/-- A superclass is an IRI. -/
def NamedSuperclass (q : Quad) : Prop :=
  q.predicate = ⟨rdfsSubclassOf⟩ → ∃ d, q.object = .named d

/-- The default graph holds no superclass of the classes. -/
def NoSuperclass (K : Subject → Prop) (s : Store) : Prop :=
  ∀ c, K c → ∀ d, ⟨c, ⟨rdfsSubclassOf⟩, d, .default⟩ ∉ s

variable {s : Store} {K : Subject → Prop} {env : ProjectorEnv} {event : EventEnvelope}

theorem RdfsClosed.closedInDefault (h : RdfsClosed s) (hnamed : ∀ q ∈ s, NamedSuperclass q) :
    ClosedInDefault s := by
  intro x c d hsub htype
  obtain ⟨n, hn⟩ := hnamed _ hsub rfl
  obtain rfl : d = .named n := hn
  exact h x c n .default hsub htype

theorem keptByInference_namedSuperclass : KeptByInference NamedSuperclass where
  subclass := by
    intro x c d g _ _ hpred
    simp at hpred
  transitive := fun _ _ _ _ _ _ h => h

/-! ## One operation -/

/-- The classes of the types that an operation inserts into the default graph. -/
def typesWithin (K : Subject → Prop) (op : Op) : Prop :=
  ∀ q, op = .put q → q.predicate = ⟨rdfType⟩ → q.graph = .default →
    ∀ c : Subject, c.toTerm = q.object → K c

/-- A type or a superclass axiom is no value of a platform property. -/
theorem pc_not_typing {name : String} : (⟨pc name⟩ : NamedNode) ≠ ⟨rdfType⟩ ∧
    (⟨pc name⟩ : NamedNode) ≠ ⟨rdfsSubclassOf⟩ := by
  simp

/-- Inserting a type whose class has no superclass keeps the closure. -/
theorem ClosedInDefault.put (hs : ClosedInDefault s) (hK : NoSuperclass K s) {q : Quad}
    (hq : Lawful env (.put q)) (htypes : typesWithin K (.put q)) :
    ClosedInDefault (s.insert q) ∧ NoSuperclass K (s.insert q) := by
  have hsubnew : ∀ c d, (⟨c, ⟨rdfsSubclassOf⟩, d, .default⟩ : Quad) ≠ q := by
    rintro c d rfl
    rcases hq.1 with ⟨name, hpred⟩ | ⟨hpred, -⟩
    · exact pc_not_typing.2 hpred.symm
    · exact rdfType_ne_rdfsSubclassOf (congrArg NamedNode.value hpred).symm
  refine ⟨fun x c d hsub htype => ?_, fun c hc d hsub => ?_⟩
  · have hsub' := (Store.mem_insert.mp hsub).resolve_right (hsubnew c d)
    rcases Store.mem_insert.mp htype with hold | rfl
    · exact Store.mem_insert.mpr (Or.inl (hs x c d hsub' hold))
    · exact absurd hsub' (hK c (htypes _ rfl rfl rfl c rfl) d)
  · exact hK c hc d ((Store.mem_insert.mp hsub).resolve_right (hsubnew c d))

/-- A lawful removal that takes a type of a resource takes all its types. -/
theorem ClosedInDefault.del (hs : ClosedInDefault s) (hK : NoSuperclass K s) {p : Pattern}
    (hp : WholeRemoval p) :
    ClosedInDefault (s.removeIf p.matches) ∧ NoSuperclass K (s.removeIf p.matches) := by
  refine ⟨fun x c d hsub htype => ?_, fun c hc d hsub => hK c hc d (Store.mem_removeIf.mp hsub).1⟩
  obtain ⟨htype, hkept⟩ := Store.mem_removeIf.mp htype
  refine Store.mem_removeIf.mpr ⟨hs x c d (Store.mem_removeIf.mp hsub).1 htype, ?_⟩
  rw [Bool.eq_false_iff, Ne, Pattern.matches_iff] at hkept ⊢
  rintro ⟨hsubj, hpred, hobj, hgraph⟩
  rcases hp with ⟨name, hname⟩ | ⟨-, hnone, -⟩ | ⟨g, hg⟩
  · rw [hname, admits_some] at hpred
    exact pc_not_typing.1 hpred
  · exact hkept ⟨hsubj, hpred, by rw [hnone]; rfl, hgraph⟩
  · rw [hg, admits_some] at hgraph
    cases hgraph

theorem ClosedInDefault.effect (hs : ClosedInDefault s ∧ NoSuperclass K s) {op : Op}
    (hop : Lawful env op) (htypes : typesWithin K op) :
    ClosedInDefault (op.effect s) ∧ NoSuperclass K (op.effect s) := by
  cases op with
  | put q => exact hs.1.put hs.2 hop htypes
  | del p => exact hs.1.del hs.2 hop
  | named context iri => exact hs
  | blank context id => exact hs
  | fail message => exact hs

theorem ClosedInDefault.runOps (hs : ClosedInDefault s ∧ NoSuperclass K s) {ops : List Op}
    (hops : AllLawful env ops) (htypes : ∀ op ∈ ops, typesWithin K op) :
    ClosedInDefault (runOps env.checks s ops).2 ∧ NoSuperclass K (runOps env.checks s ops).2 :=
  runOps_invariant (I := fun s => ClosedInDefault s ∧ NoSuperclass K s)
    (fun op hop _ ht => ClosedInDefault.effect ht (hops op hop) (htypes op hop)) hs

/-! ## One event -/

/-- Projecting the event gives the class to a resource in the default graph; what comes after an operation
that fails is not executed. -/
def GivesClass (env : ProjectorEnv) (s : Store) (event : EventEnvelope) (c : Subject) : Prop :=
  ∃ q, Op.put q ∈ executed env.checks s (script env event) ∧ q.predicate = ⟨rdfType⟩ ∧
    q.graph = .default ∧ q.object = c.toTerm

/-- The event does not reach the defect: the superclasses of a loaded ontology are IRIs, and the
classes that another event gives to resources in the default graph have no superclass there. -/
structure Quiet (env : ProjectorEnv) (s : Store) (event : EventEnvelope) : Prop where
  ontology : event.eventType = "OntologyLoaded" → ∀ triples,
    env.turtle (event.strD "content" "") = .ok triples → ∀ t ∈ triples,
      t.predicate = ⟨rdfsSubclassOf⟩ → ∃ d, t.object = .named d
  classes : event.eventType ≠ "OntologyLoaded" → NoSuperclass (GivesClass env s event) s

theorem Quiet.namedSuperclass (h : Quiet env s event) :
    ∀ step ∈ script env event, ∀ q, step.Inserts q → NamedSuperclass q := by
  intro step hstep q hq hpred
  rcases inserts_cases hstep hq with ⟨⟨name, hname⟩ | ⟨htype, -⟩, -⟩ | ⟨honto, -, triples, hparse, t,
    ht, u, heq⟩
  · rw [hname] at hpred
    exact absurd hpred pc_not_typing.2
  · rw [htype] at hpred
    simp at hpred
  · rw [heq] at hpred ⊢
    obtain ⟨d, hd⟩ := h.ontology honto triples hparse t ht hpred
    exact ⟨d, by simp [renameTriple, Triple.inGraph, hd]⟩

/-- An event that is no ontology keeps the closure as long as it is quiet. -/
theorem Quiet.closed_of_ne (h : Quiet env s event) (htype : event.eventType ≠ "OntologyLoaded")
    (hs : ClosedInDefault s) :
    ClosedInDefault (projected env s event) := by
  have hlawful : LawfulScript env (script env event) := lawful_script htype
  have hall : ∀ step ∈ script env event, step.All fun _ => True := by
    intro step hstep
    have hstepLawful := hlawful step hstep
    cases step with
    | ops l => exact fun _ _ => trivial
    | read f => exact fun _ _ _ => trivial
    | update f => exact hstepLawful
  have hrun := runScript_invariant_of_executed (C := env.checks) (s := s)
    (I := fun t => ClosedInDefault t ∧ NoSuperclass (GivesClass env s event) t) hall
    (fun op hop t ht => ?_) ⟨hs, h.classes htype⟩
  · rw [projected_eq]
    exact hrun.1
  · have hop' : Lawful env op := by
      obtain ⟨step, hstep, u, hmem⟩ := mem_executed hop
      have hstepLawful := hlawful step hstep
      cases step with
      | ops l => exact hstepLawful op hmem
      | read f => exact hstepLawful u op hmem
      | update f => cases hmem
    refine ClosedInDefault.effect ht hop' fun q hq hpred hgraph c hc => ?_
    subst hq
    exact ⟨q, hop, hpred, hgraph, hc.symm⟩

/-! ## Loading an ontology -/

/-- Loading an ontology changes nothing, or leaves the store closed. -/
theorem loadOntology_closed (env : ProjectorEnv) (turtle : String) (graph : Option String)
    (s : Store) : (runScript env.checks s (loadOntology env turtle graph)).2 = s ∨
      RdfsClosed (runScript env.checks s (loadOntology env turtle graph)).2 := by
  have hgraph : (runOps env.checks s (graph.toList.map (.named "invalid graph IRI: "))).2 = s :=
    runOps_invariant (I := fun t => t = s) (by simp [Op.effect]) rfl
  unfold loadOntology
  dsimp only
  rw [runScript, Step.run]
  cases hr : runOps env.checks s (graph.toList.map (.named "invalid graph IRI: ")) with
  | mk r s' =>
    rw [hr] at hgraph
    obtain rfl : s' = s := hgraph
    cases r with
    | error e => exact Or.inl rfl
    | ok u =>
      simp only
      rw [runScript, Step.run, loadFromReader]
      cases env.turtle turtle with
      | error e => exact Or.inl rfl
      | ok triples =>
        right
        simp only
        generalize hops : (triples.map fun t => Op.put _) = ops
        have hok : (runOps env.checks s' ops).1 = .ok () := by
          refine runOps_ok_of_error (fun op hop => ?_) s'
          obtain ⟨t, -, rfl⟩ := List.mem_map.mp (hops ▸ hop)
          rfl
        cases hl : runOps env.checks s' ops with
        | mk r t =>
          rw [hl] at hok
          cases hok
          exact rdfsClosed_materialise t

/-- So do two loads, one after the other. -/
theorem loads_closed (env : ProjectorEnv) (turtle : String) (graph graph' : Option String)
    (s : Store) :
    (runScript env.checks s (loadOntology env turtle graph ++ loadOntology env turtle graph')).2 =
        s ∨
      RdfsClosed (runScript env.checks s
        (loadOntology env turtle graph ++ loadOntology env turtle graph')).2 := by
  rw [runScript_append]
  have hfirst := loadOntology_closed env turtle graph s
  cases hr : runScript env.checks s (loadOntology env turtle graph) with
  | mk r t =>
    rw [hr] at hfirst
    cases r with
    | error e => exact hfirst
    | ok u =>
      rcases loadOntology_closed env turtle graph' t with hsame | hclosed
      · simp only [hsame]
        exact hfirst
      · exact Or.inr hclosed

/-- The triples about the ontology itself are no types. -/
theorem closedInDefault_boundOntology (hs : ClosedInDefault s) (iri version format product : String) :
    ClosedInDefault (runOps env.checks s (insertNode iri (pc "boundToVersion") "" version ++
      insertTriple iri (pc "loadedFormat") (simple format) ++
      updateStatus env iri "ready" (some product))).2 := by
  refine (ClosedInDefault.runOps (K := fun _ => False) ⟨hs, fun _ hc => hc.elim⟩ (by simp)
    fun op hop q hq hpred => ?_).1
  subst hq
  simp only [insertNode, insertTriple, updateStatus, clearInDefault, insertTripleInGraph,
    List.mem_append, List.mem_cons, List.mem_flatMap, Op.put.injEq, reduceCtorEq, List.not_mem_nil,
    or_false, false_or] at hop
  rcases hop with ((rfl | rfl) | (rfl | rfl) | ⟨p, -, rfl⟩) <;> simp [quad] at hpred

theorem Quiet.closed_ontology (h : Quiet env s event) (htype : event.eventType = "OntologyLoaded")
    (hs : ClosedInDefault s) (hnamed : ∀ q ∈ s, NamedSuperclass q) :
    ClosedInDefault (projected env s event) := by
  have hkeeps := keeps_of_inserts keptByInference_namedSuperclass h.namedSuperclass
  rw [script_ontologyLoaded htype, projectOntologyLoaded] at hkeeps
  rw [projected_eq, script_ontologyLoaded htype, projectOntologyLoaded]
  split at hkeeps
  · next hempty =>
    rw [if_pos hempty]
    exact hs
  · next hcontent =>
    rw [if_neg hcontent, runScript_append]
    have hloads := loads_closed env (event.strD "content" "")
      (some (env.iris.productGraph (event.strD "product" ""))) none s
    have hnamed' := forall_mem_runScript (C := env.checks)
      (fun step hstep => hkeeps step (List.mem_append_left _ hstep)) hnamed
    cases hr : runScript env.checks s (loadOntology env (event.strD "content" "")
        (some (env.iris.productGraph (event.strD "product" ""))) ++
          loadOntology env (event.strD "content" "") none) with
    | mk r t =>
      rw [hr] at hloads hnamed'
      have ht : ClosedInDefault t := by
        rcases hloads with rfl | hclosed
        · exact hs
        · exact hclosed.closedInDefault hnamed'
      cases r with
      | error e => exact ht
      | ok u =>
        show ClosedInDefault (runScript _ t _).2
        rw [runScript_singleton]
        exact closedInDefault_boundOntology ht _ _ _ _

/-! ## Whole runs -/

/-- A quiet event keeps the closure, and the superclasses IRIs. -/
theorem Quiet.keeps (h : Quiet env s event) (hs : ClosedInDefault s ∧ ∀ q ∈ s, NamedSuperclass q) :
    ClosedInDefault (projected env s event) ∧
      ∀ q ∈ projected env s event, NamedSuperclass q := by
  constructor
  · by_cases htype : event.eventType = "OntologyLoaded"
    · exact h.closed_ontology htype hs.1 hs.2
    · exact h.closed_of_ne htype hs.1
  · rw [projected_eq]
    exact forall_mem_runScript
      (keeps_of_inserts keptByInference_namedSuperclass h.namedSuperclass) hs.2

/-- The events were all quiet when they were projected. -/
def QuietRun (env : ProjectorEnv) (events : List EventEnvelope) : Prop :=
  StepsMeet (fun s event => some (projected env s event)) (Quiet env) [] events

/-- The graph after events. -/
def graphAfter (env : ProjectorEnv) (events : List EventEnvelope) : Store :=
  (Projector.new.projectEach env events).store

/-- **In a run of quiet events the default graph is closed under `rdfs:subClassOf`.** -/
theorem closed_of_quiet_run (env : ProjectorEnv) (events : List EventEnvelope)
    (hquiet : QuietRun env events) : ClosedInDefault (graphAfter env events) := by
  rw [graphAfter, Projector.store_projectEach]
  refine (runSteps_invariant _ (I := fun s => ClosedInDefault s ∧ ∀ q ∈ s, NamedSuperclass q)
    ?_ events [] _ ⟨by simp [ClosedInDefault], by simp⟩ hquiet (runSteps_some _ _ _)).1
  intro s event s' hs hevent hstep
  cases hstep
  exact hevent.keeps hs

/-- An ontology that makes every resource an asset. -/
def assetOntology : List Triple :=
  [⟨.named ⟨pc "Resource"⟩, ⟨rdfsSubclassOf⟩, picloudTerm "Asset"⟩]

/-- The environment that parses it. -/
def assetEnv : ProjectorEnv := sampleEnv fun _ => .ok assetOntology

/-- The ontology is loaded. -/
def sampleOntology : EventEnvelope :=
  sampleEvent "OntologyLoaded" (some "shop") [("product", .string "shop"), ("content", .string "ttl")]

/-- A resource is declared. -/
def sampleDeclared : EventEnvelope :=
  sampleEvent "ResourceDeclared" none [("resource_iri", .string "https://picloud.local/r")]

/-- The ontology first, then the resource: the default graph is not closed, and the resource is no
asset. In the other order it is. -/
theorem ontology_before_resource_not_closed :
    ¬ ClosedInDefault (graphAfter assetEnv [sampleOntology, sampleDeclared]) ∧
      quad "https://picloud.local/r" rdfType (picloudTerm "Asset") .default ∉
        graphAfter assetEnv [sampleOntology, sampleDeclared] ∧
      quad "https://picloud.local/r" rdfType (picloudTerm "Asset") .default ∈
        graphAfter assetEnv [sampleDeclared, sampleOntology] := by
  have hmissing : quad "https://picloud.local/r" rdfType (picloudTerm "Asset") .default ∉
      graphAfter assetEnv [sampleOntology, sampleDeclared] := by
    decide +kernel
  refine ⟨fun h => hmissing (h (.named ⟨"https://picloud.local/r"⟩) (.named ⟨pc "Resource"⟩)
    (picloudTerm "Asset") ?_ ?_), hmissing, by decide +kernel⟩
  · decide +kernel
  · decide +kernel

end Picloud
