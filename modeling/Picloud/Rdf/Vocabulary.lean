import Picloud.Rdf.Projector

/-!
# What the handlers write

The handlers insert properties of the platform vocabulary and types among the classes of the
platform. They remove the values of one property, everything about one subject, or a named graph.
Only the content of a loaded ontology is free.
-/

namespace Picloud

open Lib

/-! ## Lawful operations -/

/-- The classes that the handlers give to resources. -/
def platformClasses : List String :=
  ["Alert", "BackupCompleted", "Capability", "ConfigEntry", "Container", "DataDomain", "DataProduct",
    "DataProductDependency", "EventStore", "EventSubscription", "FeatureFlag", "Group",
    "HealthCheck", "Identity", "Image", "ImageTag", "InferenceRule", "Ingress", "NetworkPolicy",
    "Node", "Ontology", "ProductEvent", "RdfStore", "RegistryGC", "Repository", "Resource",
    "RestoreCompleted", "Snapshot", "SnapshotCreated", "SnapshotDeleted", "Volume"]

/-- A property of the platform, or a type among the classes of the platform. -/
def Vocabulary (predicate : NamedNode) (object : Term) : Prop :=
  (∃ name, predicate = ⟨pc name⟩) ∨
    predicate = ⟨rdfType⟩ ∧ ∃ c ∈ platformClasses, object = picloudTerm c

/-- The removal takes the values of a platform property, or everything about a subject, or only
quads of named graphs. -/
def WholeRemoval (p : Pattern) : Prop :=
  (∃ name, p.predicate = some ⟨pc name⟩) ∨ (p.predicate = none ∧ p.object = none ∧ p.subject ≠ none) ∨
    ∃ g, p.graph = some (.named g)

/-- The default graph, or the graph of a product. -/
def PlatformGraph (env : ProjectorEnv) (graph : GraphName) : Prop :=
  graph = .default ∨ ∃ product, graph = .named ⟨env.iris.productGraph product⟩

/-- The operation is of the kind that handlers perform. -/
def Lawful (env : ProjectorEnv) : Op → Prop
  | .put q => Vocabulary q.predicate q.object ∧ PlatformGraph env q.graph
  | .del p => WholeRemoval p
  | _ => True

/-- All operations of a list are. -/
abbrev AllLawful (env : ProjectorEnv) (ops : List Op) : Prop := AllOps (Lawful env) ops

variable {env : ProjectorEnv}

@[simp] theorem platformGraph_default : PlatformGraph env .default := Or.inl rfl

@[simp] theorem platformGraph_product (product : String) :
    PlatformGraph env (.named ⟨env.iris.productGraph product⟩) := Or.inr ⟨product, rfl⟩

@[simp] theorem vocabulary_pc (name : String) (object : Term) : Vocabulary ⟨pc name⟩ object :=
  Or.inl ⟨name, rfl⟩

@[simp] theorem vocabulary_rdfType {c : String} :
    Vocabulary ⟨rdfType⟩ (picloudTerm c) ↔ c ∈ platformClasses := by
  simp [Vocabulary, picloudTerm]

/-! ### Single operations -/

@[simp] theorem lawful_named (context iri : String) : Lawful env (.named context iri) := trivial

@[simp] theorem lawful_blank (context id : String) : Lawful env (.blank context id) := trivial

@[simp] theorem lawful_fail (message : String) : Lawful env (.fail message) := trivial

variable {graph : GraphName} {object : Term} {predicate subject : String} {event : EventEnvelope}

@[simp] theorem lawful_put_quad :
    Lawful env (.put (quad subject predicate object graph)) ↔
      Vocabulary ⟨predicate⟩ object ∧ PlatformGraph env graph := Iff.rfl

@[simp] theorem lawful_del_quad (subject name : String) (object : Term) (graph : GraphName) :
    Lawful env (.del (quad subject (pc name) object graph).pattern) :=
  Or.inl ⟨name, rfl⟩

@[simp] theorem lawful_del_valuesOf (subject name : String) (graph : Option GraphName) :
    Lawful env (.del (valuesOf subject (pc name) graph)) :=
  Or.inl ⟨name, rfl⟩

@[simp] theorem lawful_del_aboutIri (subject : String) : Lawful env (.del (aboutIri subject)) :=
  Or.inr (Or.inl ⟨rfl, rfl, by simp [aboutIri]⟩)

@[simp] theorem lawful_del_aboutIriInDefault (subject : String) :
    Lawful env (.del (aboutIriInDefault subject)) :=
  Or.inr (Or.inl ⟨rfl, rfl, by simp [aboutIriInDefault]⟩)

@[simp] theorem lawful_del_graph (graph : NamedNode) :
    Lawful env (.del { graph := some (.named graph) }) :=
  Or.inr (Or.inr ⟨graph, rfl⟩)

/-! ### The helpers -/

@[simp] theorem allLawful_insertTriple :
    AllLawful env (insertTriple subject predicate object) ↔ Vocabulary ⟨predicate⟩ object := by
  simp [insertTriple]

@[simp] theorem allLawful_insertTripleInGraph {product : String} :
    AllLawful env (insertTripleInGraph subject predicate object (env.iris.productGraph product)) ↔
      Vocabulary ⟨predicate⟩ object := by
  simp [insertTripleInGraph]

@[simp] theorem allLawful_insertNode (subject name context object : String) :
    AllLawful env (insertNode subject (pc name) context object) := by
  simp [insertNode]

@[simp] theorem allLawful_tryInsertNode (env : ProjectorEnv) (subject name object : String) :
    AllLawful env (tryInsertNode env subject (pc name) object) := by
  unfold tryInsertNode
  split <;> simp

@[simp] theorem allLawful_removeTriplesAbout (subject : String) :
    AllLawful env (removeTriplesAbout subject) := by
  simp [removeTriplesAbout]

@[simp] theorem allLawful_removeTriple (subject name : String) :
    AllLawful env (removeTriple subject (pc name)) := by
  simp [removeTriple]

@[simp] theorem allLawful_removeTriplesAboutAllGraphs (subject : String) :
    AllLawful env (removeTriplesAboutAllGraphs subject) := by
  simp [removeTriplesAboutAllGraphs]

@[simp] theorem allLawful_clearInDefault (subject name : String) :
    AllLawful env (clearInDefault subject (pc name)) := by
  simp [clearInDefault]

@[simp] theorem allLawful_tryRemoveAbout (env : ProjectorEnv) (subject : String) :
    AllLawful env (tryRemoveAbout env subject) := by
  unfold tryRemoveAbout
  split <;> simp

@[simp] theorem allLawful_optionalText (event : EventEnvelope) (iri name field : String) :
    AllLawful env (optionalText event iri name field) := by
  simp [optionalText]

@[simp] theorem allLawful_nonEmptyText (event : EventEnvelope) (iri name field : String) :
    AllLawful env (nonEmptyText event iri name field) := by
  simp only [nonEmptyText, allOps_flatMap]
  intro value _
  split <;> simp

@[simp] theorem allLawful_optionalJson (env : ProjectorEnv) (event : EventEnvelope)
    (iri name field : String) : AllLawful env (optionalJson env event iri name field) := by
  simp [optionalJson]

@[simp] theorem allLawful_replaceText (iri name value : String) :
    AllLawful env (replaceText iri name value) := by
  simp [replaceText]

@[simp] theorem allLawful_updateStatus (env : ProjectorEnv) (iri status : String)
    (product : Option String) : AllLawful env (updateStatus env iri status product) := by
  simp [updateStatus]

@[simp] theorem allLawful_healthCheck (nodeIri : String) (check : Json) :
    AllLawful env (healthCheck nodeIri check) := by
  simp [healthCheck, platformClasses]

@[simp] theorem allLawful_metricTriple (env : ProjectorEnv) (nodeIri : String) (metric : Json) :
    AllLawful env (metricTriple env nodeIri metric) := by
  simp [metricTriple]

@[simp] theorem allLawful_dependencyTriples (env : ProjectorEnv) (iri : String) (dep : Json) :
    AllLawful env (dependencyTriples env iri dep) := by
  simp [dependencyTriples, platformClasses]

@[simp] theorem allLawful_upsertNodeDrainStatus (nodeIri status : String) :
    AllLawful env (upsertNodeDrainStatus nodeIri status) := by
  simp [upsertNodeDrainStatus]

@[simp] theorem allLawful_volumeEvent {iri volumeIri className timeProperty time : String} :
    AllLawful env (volumeEvent iri volumeIri className timeProperty time) ↔
      className ∈ platformClasses := by
  simp [volumeEvent]

@[simp] theorem allLawful_tagQuads {iri key value : String} :
    AllLawful env ((tagQuads iri key value graph).map .put) ↔ PlatformGraph env graph := by
  simp [tagQuads, Lawful]

/-! ### Declarations by type -/

theorem allLawful_declareEventStore (env : ProjectorEnv) (event : EventEnvelope) (iri : String) :
    AllLawful env (declareEventStore env event iri) := by
  simp [declareEventStore, platformClasses]

theorem allLawful_declareRdfStore (env : ProjectorEnv) (event : EventEnvelope) (iri : String) :
    AllLawful env (declareRdfStore env event iri) := by
  unfold declareRdfStore
  simp only [allOps_append, and_assoc]
  refine ⟨by simp [platformClasses], ?_, by simp, by simp [typeInProductGraph, platformClasses]⟩
  split <;> simp

theorem allLawful_declareByType (env : ProjectorEnv) (event : EventEnvelope)
    (iri resourceType : String) : AllLawful env (declareByType env event iri resourceType) := by
  simp only [declareByType, allOps_ite, allOps_nil, implies_true, and_true]
  and_intros <;> intros
  · simp [declareGroup, platformClasses]
  and_intros <;> intros
  · simp [declareVolume, platformClasses]
  and_intros <;> intros
  · simp [declareIngress, platformClasses]
  and_intros <;> intros
  · simp [declareContainer, platformClasses]
  and_intros <;> intros
  · simp [declareFeatureFlag, platformClasses]
  and_intros <;> intros
  · simp [declareInferenceRule, platformClasses]
  and_intros <;> intros
  · simp [declareNetworkPolicy, platformClasses]
  and_intros <;> intros
  · exact allLawful_declareEventStore env event iri
  and_intros <;> intros
  · exact allLawful_declareRdfStore env event iri
  and_intros <;> intros
  · simp [declareEventSubscription, platformClasses]
  · simp [declareOntology, typeInProductGraph, platformClasses]

/-! ### What the store readers compute -/

theorem allLawful_removeLeaders (env : ProjectorEnv) (s : Store) :
    AllLawful env (removeLeaders env s) := by
  simp only [removeLeaders, allOps_flatMap]
  intro q _
  split <;> simp [leaderQuad]

theorem allLawful_removeHealthChecks (env : ProjectorEnv) (nodeIri : String) (s : Store) :
    AllLawful env (removeHealthChecks env nodeIri s) := by
  simp only [removeHealthChecks, allOps_cons, allOps_flatMap, lawful_named, true_and]
  intro q hq
  have hpred : q.predicate = ⟨pc "hasHealthCheck"⟩ := by
    rw [(env.scan_perm _).mem_iff, Store.mem_quadsForPattern, Pattern.matches_iff] at hq
    exact (admits_some.mp hq.2.2.1).symm
  rw [allOps_append]
  refine ⟨?_, ?_⟩
  · split <;> simp
  · rw [allOps_cons]
    exact ⟨Or.inl ⟨_, congrArg some hpred⟩, allOps_nil⟩

theorem allLawful_removeChildrenByPath (env : ProjectorEnv) (name : String) (s : Store) :
    AllLawful env (removeChildrenByPath env name s) := by
  simp only [removeChildrenByPath, allOps_flatMap]
  intro q _
  split
  · simp
  · simp

theorem allLawful_completeGc (env : ProjectorEnv) (event : EventEnvelope) (s : Store) :
    AllLawful env (completeGc env event s) := by
  simp [completeGc]

theorem allLawful_countSnapshot (env : ProjectorEnv) (volumeIri : String) (s : Store) :
    AllLawful env (countSnapshot env volumeIri s) := by
  simp [countSnapshot]

theorem allLawful_removeTagsOf (env : ProjectorEnv) (repo image : String) (s : Store) :
    AllLawful env (removeTagsOf env repo image s) := by
  simp [removeTagsOf]

/-! ## The scripts -/

/-- The step performs lawful operations only, whatever the store. -/
def LawfulStep (env : ProjectorEnv) : Step → Prop
  | .ops l => AllLawful env l
  | .read f => ∀ s, AllLawful env (f s)
  | .update _ => False

/-- All steps of the script are lawful. -/
def LawfulScript (env : ProjectorEnv) (script : Script) : Prop :=
  ∀ step ∈ script, LawfulStep env step

theorem lawfulScript_nil : LawfulScript env [] := by simp [LawfulScript]

@[simp] theorem lawfulScript_cons {step : Step} {steps : Script} :
    LawfulScript env (step :: steps) ↔ LawfulStep env step ∧ LawfulScript env steps := by
  simp [LawfulScript]

theorem lawfulScript_ops {l : List Op} (h : AllLawful env l) : LawfulScript env [.ops l] := by
  simpa [LawfulScript, LawfulStep] using h

section Handlers

variable (env : ProjectorEnv) (event : EventEnvelope)

theorem lawful_projectLeaderElected : LawfulScript env (projectLeaderElected env event) := by
  simp [projectLeaderElected, LawfulStep, allLawful_removeLeaders, lawfulScript_nil]

theorem lawful_projectResourceDeclared : LawfulScript env (projectResourceDeclared env event) := by
  refine lawfulScript_ops (allOps_append.mpr ?_)
  exact ⟨by simp [declareResource, platformClasses], allLawful_declareByType env event _ _⟩

theorem lawful_projectProductDeleted : LawfulScript env (projectProductDeleted env event) := by
  simp [projectProductDeleted, LawfulStep, removeChildrenByProperty,
    allLawful_removeChildrenByPath, lawfulScript_nil]

theorem lawful_projectMetricRecorded : LawfulScript env (projectMetricRecorded env event) := by
  unfold projectMetricRecorded
  dsimp only
  split
  · exact lawfulScript_nil
  · exact lawfulScript_ops (by simp)

theorem lawful_projectTagRemoved : LawfulScript env (projectTagRemoved event) := by
  apply lawfulScript_ops
  simp only [allOps_cons, allOps_nil, lawful_blank, lawful_named, true_and, and_true]
  exact ⟨Or.inr (Or.inl ⟨rfl, rfl, by simp⟩), Or.inl ⟨_, rfl⟩⟩

theorem lawful_projectConfigChanged : LawfulScript env (projectConfigChanged env event) := by
  unfold projectConfigChanged
  dsimp only
  split
  · exact lawfulScript_ops (by simp)
  · exact lawfulScript_ops (by simp [platformClasses])

theorem lawful_projectFeatureFlagChanged : LawfulScript env (projectFeatureFlagChanged env event) := by
  unfold projectFeatureFlagChanged
  dsimp only
  split
  · exact lawfulScript_ops (by simp)
  · exact lawfulScript_ops (by simp [platformClasses])

theorem lawful_projectGroupMembershipChanged :
    LawfulScript env (projectGroupMembershipChanged event) := by
  unfold projectGroupMembershipChanged
  dsimp only
  split
  · exact lawfulScript_ops (by simp [platformClasses])
  · split
    · exact lawfulScript_ops (by simp)
    · exact lawfulScript_nil

theorem lawful_projectSnapshotCreated : LawfulScript env (projectSnapshotCreated env event) := by
  simp [projectSnapshotCreated, LawfulStep, allLawful_countSnapshot, lawfulScript_nil,
    platformClasses]

theorem lawful_projectImageDeleted : LawfulScript env (projectImageDeleted env event) := by
  simp [projectImageDeleted, LawfulStep, allLawful_removeTagsOf, lawfulScript_nil]

theorem lawful_projectRegistryGcCompleted :
    LawfulScript env (projectRegistryGcCompleted env event) := by
  simp [projectRegistryGcCompleted, LawfulStep, allLawful_completeGc, lawfulScript_nil]

theorem lawful_projectCapabilityImplementorRemoved :
    LawfulScript env (projectCapabilityImplementorRemoved env event) := by
  unfold projectCapabilityImplementorRemoved
  dsimp only
  split
  · exact lawfulScript_ops (by simp)
  · exact lawfulScript_nil

theorem lawful_projectProductEventAppended :
    LawfulScript env (projectProductEventAppended env event) := by
  unfold projectProductEventAppended
  split
  · exact lawfulScript_ops (by simp)
  · exact lawfulScript_ops (by simp [platformClasses])

theorem lawful_projectSelfMonitoring : LawfulScript env (projectSelfMonitoring env event) := by
  simp [projectSelfMonitoring, LawfulStep, allLawful_removeHealthChecks, lawfulScript_nil]

end Handlers

/-- All handlers but the one for ontologies are lawful. -/
theorem lawful_handlers (env : ProjectorEnv) :
    ∀ p ∈ handlers env, p.1 ≠ "OntologyLoaded" → ∀ event, LawfulScript env (p.2 event) := by
  unfold handlers
  simp only [List.forall_mem_cons]
  and_intros
  all_goals first
    | exact fun h => absurd rfl h
    | exact fun _ _ => lawfulScript_nil
    | (intro _ event; refine lawfulScript_ops ?_; simp [platformClasses]; done)
    | skip
  · exact fun _ => lawful_projectLeaderElected env
  · exact fun _ => lawful_projectResourceDeclared env
  · exact fun _ => lawful_projectProductDeleted env
  · exact fun _ => lawful_projectMetricRecorded env
  · exact fun _ => lawful_projectTagRemoved env
  · exact fun _ => lawful_projectConfigChanged env
  · exact fun _ => lawful_projectFeatureFlagChanged env
  · exact fun _ => lawful_projectGroupMembershipChanged env
  · exact fun _ => lawful_projectSnapshotCreated env
  · exact fun _ => lawful_projectImageDeleted env
  · exact fun _ => lawful_projectRegistryGcCompleted env
  · exact fun _ => lawful_projectCapabilityImplementorRemoved env
  · exact fun _ => lawful_projectProductEventAppended env
  · exact fun _ => lawful_projectSelfMonitoring env
  · simp

theorem lawful_script (h : event.eventType ≠ "OntologyLoaded") :
    LawfulScript env (script env event) :=
  script_induction lawfulScript_nil fun p hp heq => lawful_handlers env p hp (heq ▸ h) event

/-- A property of quads that the vocabulary has is kept by every event but a loaded ontology. -/
theorem forall_mem_projected_of_vocabulary {P : Quad → Prop}
    (hP : ∀ q, Vocabulary q.predicate q.object → P q) (h : event.eventType ≠ "OntologyLoaded")
    {s : Store} (hs : ∀ q ∈ s, P q) :
    ∀ q ∈ projected env s event, P q := by
  rw [projected_eq]
  refine forall_mem_runScript (fun step hstep => ?_) hs
  have hlawful := lawful_script h step hstep
  cases step with
  | ops l => exact fun q hq => hP q (hlawful (.put q) hq).1
  | read f => exact fun s _ q hq => hP q (hlawful s (.put q) hq).1
  | update f => exact hlawful.elim

/-! ## Ontologies -/

/-- The quad is a triple of the content of the event, with its blank nodes renamed, in the default
graph or in the graph of a product. -/
def FromOntology (env : ProjectorEnv) (event : EventEnvelope) (q : Quad) : Prop :=
  event.eventType = "OntologyLoaded" ∧ PlatformGraph env q.graph ∧
    ∃ triples, env.turtle (event.strD "content" "") = .ok triples ∧
      ∃ t ∈ triples, ∃ s, q = (renameTriple (env.rename s) t).inGraph q.graph

theorem put_mem_loadFromReader {turtle : String} {s : Store} {q : Quad}
    (h : Op.put q ∈ loadFromReader env turtle graph s) : ∃ triples, env.turtle turtle = .ok triples ∧
      ∃ t ∈ triples, q = (renameTriple (env.rename s) t).inGraph graph := by
  unfold loadFromReader at h
  split at h
  · simp at h
  · next triples hparse =>
    obtain ⟨t, ht, heq⟩ := List.mem_map.mp h
    exact ⟨triples, hparse, t, ht, (Op.put.inj heq).symm⟩

/-- What a handler inserts is of the vocabulary, or comes from an ontology; and it goes to the
default graph or to the graph of a product. -/
theorem inserts_cases {step : Step} (hstep : step ∈ script env event) {q : Quad}
    (hq : step.Inserts q) :
    Vocabulary q.predicate q.object ∧ PlatformGraph env q.graph ∨ FromOntology env event q := by
  by_cases htype : event.eventType = "OntologyLoaded"
  · rw [script_ontologyLoaded htype, projectOntologyLoaded] at hstep
    split at hstep
    · simp at hstep
    · have hload : ∀ graph, PlatformGraph env graph → (∃ s, Op.put q ∈
          loadFromReader env (event.strD "content" "") graph s) → FromOntology env event q := by
        rintro graph hgraph ⟨s, hput⟩
        obtain ⟨triples, hparse, t, ht, rfl⟩ := put_mem_loadFromReader hput
        exact ⟨htype, hgraph, triples, hparse, t, ht, s, rfl⟩
      simp only [loadOntology, List.mem_append, List.mem_cons, List.not_mem_nil, or_false] at hstep
      rcases hstep with ((rfl | rfl | rfl | rfl) | rfl | rfl | rfl | rfl) | rfl
      · simp [Step.Inserts] at hq
      · exact Or.inr (hload _ (by simp) hq)
      · exact hq.elim
      · exact hq.elim
      · simp [Step.Inserts] at hq
      · exact Or.inr (hload _ (by simp) hq)
      · exact hq.elim
      · exact hq.elim
      · refine Or.inl ?_
        have hlawful : AllLawful env (insertNode (event.iriOrSource "ontology_iri")
            (pc "boundToVersion") "" (env.iris.productOntologyVersioned (event.strD "product" "")
              (event.strD "version" "0.0.0")) ++
            insertTriple (event.iriOrSource "ontology_iri") (pc "loadedFormat")
              (simple (event.strD "format" "turtle")) ++
            updateStatus env (event.iriOrSource "ontology_iri") "ready"
              (some (event.strD "product" ""))) := by simp
        exact hlawful (.put q) hq
  · have hlawful := lawful_script htype step hstep
    cases step with
    | ops l => exact Or.inl (hlawful (.put q) hq)
    | read f =>
      obtain ⟨s, hput⟩ := hq
      exact Or.inl (hlawful s (.put q) hput)
    | update f => exact hlawful.elim

end Picloud
