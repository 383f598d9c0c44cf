import Picloud.Rdf.Vocabulary

/-!
# The lifecycle of a resource

Reference: the handlers of `ResourceDeclared`, `ResourceProvisioning`, `ResourceReady`,
`ResourceFailed` and `ResourceDeleted`, and `update_status`, of
`picloud-rdf/src/implementation.rs`.

`Life` is what the five handlers make of one resource: its values of `status` and `statusLabel` in
the default graph, and its values of `status` in the graph of each product. A declaration adds a
value. An update replaces the values of `status`, in the default graph and in the graph of the
product that its envelope names, and adds a value of `statusLabel`. Whether one value is left, and
the right one, is then a question about the events of the resource since it was last deleted.
-/

namespace Picloud

open Lib

/-! ## Lifecycle events -/

/-- The event types of the lifecycle. -/
def lifecycleTypes : List String :=
  ["ResourceDeclared", "ResourceProvisioning", "ResourceReady", "ResourceFailed", "ResourceDeleted"]

/-- The resource that a lifecycle event is about. -/
def resourceOf (event : EventEnvelope) : String := event.iriOrSource "resource_iri"

/-- The status that an event of the type gives to its resource. -/
def statusText (eventType : String) : Option String :=
  if eventType = "ResourceDeclared" then some "declared"
  else if eventType = "ResourceProvisioning" then some "provisioning"
  else if eventType = "ResourceReady" then some "ready"
  else if eventType = "ResourceFailed" then some "failed"
  else none

/-- The value of `status` for a text. -/
def statusTerm (text : String) : Term := picloudTerm (capitalizeStatus text)

/-- The graph of a product. -/
def productGraphName (env : ProjectorEnv) (product : String) : GraphName :=
  .named ⟨env.iris.productGraph product⟩

/-- The IRI of the graph of a product is valid. -/
def ValidProduct (env : ProjectorEnv) (product : String) : Prop :=
  env.checks.iri (env.iris.productGraph product) = none

instance (env : ProjectorEnv) (product : String) : Decidable (ValidProduct env product) :=
  inferInstanceAs (Decidable (_ = none))

/-! ## The abstract lifecycle -/

/-- What the handlers have made of one resource. -/
structure Life where
  /-- The values of `status` in the default graph. -/
  status : List Term
  /-- The values of `statusLabel` in the default graph. -/
  labels : List Term
  /-- The values of `status` in the graph of a product. -/
  inProduct : String → List Term

namespace Life

/-- Nothing is known about the resource. -/
def empty : Life := ⟨[], [], fun _ => []⟩

/-- A declaration, with the product of its payload. -/
def declared (env : ProjectorEnv) (l : Life) (product : Option String) : Life where
  status := l.status ++ [statusTerm "declared"]
  labels := l.labels
  inProduct p := if product = some p ∧ ValidProduct env p then
    l.inProduct p ++ [statusTerm "declared"] else l.inProduct p

/-- An update to a status, with the product of its envelope. -/
def updated (env : ProjectorEnv) (l : Life) (text : String) (product : Option String) : Life where
  status := [statusTerm text]
  labels := l.labels ++ [simple text]
  inProduct p := if product = some p ∧ ValidProduct env p then [statusTerm text] else l.inProduct p

theorem declared_inProduct (env : ProjectorEnv) (l : Life) (product : Option String) (p : String) :
    (l.declared env product).inProduct p = if product = some p ∧ ValidProduct env p then
      l.inProduct p ++ [statusTerm "declared"] else l.inProduct p := rfl

theorem updated_inProduct (env : ProjectorEnv) (l : Life) (text : String) (product : Option String)
    (p : String) : (l.updated env text product).inProduct p =
      if product = some p ∧ ValidProduct env p then [statusTerm text] else l.inProduct p := rfl

/-- One event of the resource. -/
def step (env : ProjectorEnv) (l : Life) (event : EventEnvelope) : Life :=
  if event.eventType = "ResourceDeclared" then l.declared env (event.str "product")
  else match statusText event.eventType with
    | some text => l.updated env text event.product
    | none => empty

end Life

/-- The store holds of a resource what its life says. -/
structure Lives (env : ProjectorEnv) (r : String) (s : Store) (l : Life) : Prop where
  status : ∀ o, quad r (pc "status") o .default ∈ s ↔ o ∈ l.status
  labels : ∀ o, quad r (pc "statusLabel") o .default ∈ s ↔ o ∈ l.labels
  inProduct : ∀ p o, quad r (pc "status") o (productGraphName env p) ∈ s ↔ o ∈ l.inProduct p

/-! ## Operations beside the lifecycle -/

/-- The operation inserts other properties of the resource, and removes nothing. -/
def SideOp (names : List String) (r : String) : Op → Prop
  | .put q => q.subject = .named ⟨r⟩ ∧ ∀ name ∈ names, q.predicate ≠ ⟨pc name⟩
  | .del _ => False
  | _ => True

section SideOp

variable {names : List String} {r : String}

@[simp] theorem sideOp_named (context iri : String) : SideOp names r (.named context iri) := trivial

variable {object : Term} {predicate subject : String}

@[simp] theorem sideOp_put_quad {graph : GraphName} :
    SideOp names r (.put (quad subject predicate object graph)) ↔
      subject = r ∧ ∀ name ∈ names, predicate ≠ pc name := by
  simp [SideOp, quad]

@[simp] theorem sideOps_insertTriple :
    AllOps (SideOp names r) (insertTriple subject predicate object) ↔
      subject = r ∧ ∀ name ∈ names, predicate ≠ pc name := by
  simp [insertTriple]

@[simp] theorem sideOps_insertTripleInGraph {graph : String} :
    AllOps (SideOp names r) (insertTripleInGraph subject predicate object graph) ↔
      subject = r ∧ ∀ name ∈ names, predicate ≠ pc name := by
  simp [insertTripleInGraph]

@[simp] theorem sideOps_insertNode {context object : String} :
    AllOps (SideOp names r) (insertNode subject predicate context object) ↔
      subject = r ∧ ∀ name ∈ names, predicate ≠ pc name := by
  simp [insertNode]

/-- Fewer properties are excluded. -/
theorem allOps_sideOp_mono {names' : List String} (hsub : names' ⊆ names) {ops : List Op}
    (h : AllOps (SideOp names r) ops) : AllOps (SideOp names' r) ops := by
  intro op hop
  have hside := h op hop
  cases op with
  | put q => exact ⟨hside.1, fun name hname => hside.2 name (hsub hname)⟩
  | del p => exact hside.elim
  | named context iri => trivial
  | blank context id => trivial
  | fail message => trivial

/-- Quads of another resource, and the properties excluded, are left alone. -/
theorem mem_runOps_side {C : TermChecks} {ops : List Op} (h : AllOps (SideOp names r) ops) {q : Quad}
    (hq : q.subject ≠ .named ⟨r⟩ ∨ ∃ name ∈ names, q.predicate = ⟨pc name⟩) {s : Store} :
    q ∈ (runOps C s ops).2 ↔ q ∈ s := by
  refine runOps_invariant (I := fun t => q ∈ t ↔ q ∈ s) (fun op hop t ht => ?_) Iff.rfl
  have hside := h op hop
  cases op with
  | put u =>
    have hne : q ≠ u := by
      rintro rfl
      rcases hq with hsubj | ⟨name, hname, hpred⟩
      · exact hsubj hside.1
      · exact hside.2 name hname hpred
    rw [Op.effect, Store.mem_insert, or_iff_left hne]
    exact ht
  | del p => exact hside.elim
  | named context iri => exact ht
  | blank context id => exact ht
  | fail message => exact ht

end SideOp

/-- The properties of the lifecycle. -/
def lifecycleNames : List String := ["status", "statusLabel", "failureReason"]

/-- The part of a declaration that depends on the type of the resource is beside the lifecycle, and
gives it no product. -/
theorem sideOps_declareByType_product (env : ProjectorEnv) (event : EventEnvelope)
    (r resourceType : String) :
    AllOps (SideOp ("product" :: lifecycleNames) r) (declareByType env event r resourceType) := by
  simp only [declareByType, allOps_ite, allOps_nil, implies_true, and_true]
  and_intros <;> intros
  · simp [declareGroup, nonEmptyText, lifecycleNames]
  and_intros <;> intros
  · simp [declareVolume, optionalJson, lifecycleNames]
  and_intros <;> intros
  · simp [declareIngress, optionalText, optionalJson, lifecycleNames]
  and_intros <;> intros
  · simp [declareContainer, optionalText, lifecycleNames]
  and_intros <;> intros
  · simp [declareFeatureFlag, optionalText, lifecycleNames]
  and_intros <;> intros
  · simp [declareInferenceRule, optionalText, lifecycleNames]
  and_intros <;> intros
  · simp [declareNetworkPolicy, optionalText, lifecycleNames]
  and_intros <;> intros
  · simp [declareEventStore, lifecycleNames]
  and_intros <;> intros
  · simp only [declareRdfStore, allOps_append, and_assoc]
    refine ⟨by simp [lifecycleNames], ?_, by simp [lifecycleNames],
      by simp [typeInProductGraph, lifecycleNames]⟩
    split <;> simp [lifecycleNames]
  and_intros <;> intros
  · simp [declareEventSubscription, optionalText, nonEmptyText, lifecycleNames]
  · simp [declareOntology, optionalText, typeInProductGraph, lifecycleNames]

theorem sideOps_declareByType (env : ProjectorEnv) (event : EventEnvelope) (r resourceType : String) :
    AllOps (SideOp lifecycleNames r) (declareByType env event r resourceType) :=
  allOps_sideOp_mono (List.subset_cons_self _ _) (sideOps_declareByType_product env event r resourceType)

/-! ## The five scripts -/

section Scripts

variable {env : ProjectorEnv} {event : EventEnvelope}

theorem script_resourceDeclared (h : event.eventType = "ResourceDeclared") :
    script env event = projectResourceDeclared env event := by
  rw [script, h]
  rfl

theorem script_resourceProvisioning (h : event.eventType = "ResourceProvisioning") :
    script env event = projectResourceProvisioning env event := by
  rw [script, h]
  rfl

theorem script_resourceReady (h : event.eventType = "ResourceReady") :
    script env event = projectResourceReady env event := by
  rw [script, h]
  rfl

theorem script_resourceFailed (h : event.eventType = "ResourceFailed") :
    script env event = projectResourceFailed env event := by
  rw [script, h]
  rfl

theorem script_resourceDeleted (h : event.eventType = "ResourceDeleted") :
    script env event = projectResourceDeleted event := by
  rw [script, h]
  rfl

/-- What an update does besides the status. -/
def updateExtras (env : ProjectorEnv) (event : EventEnvelope) : List Op :=
  if event.eventType = "ResourceProvisioning" then
    optionalText event (resourceOf event) "provisioningMessage" "message"
  else if event.eventType = "ResourceFailed" then
    let reason := event.strD "reason" "unknown"
    insertTriple (resourceOf event) (pc "failureReason") (simple reason) ++
      event.product.toList.flatMap fun product =>
        insertTripleInGraph (resourceOf event) (pc "failureReason") (simple reason)
          (env.iris.productGraph product)
  else []

/-- The updates are one definition with different texts and extras. -/
theorem projected_update {text : String} (htext : statusText event.eventType = some text)
    (hne : event.eventType ≠ "ResourceDeclared") (s : Store) :
    projected env s event = (runOps env.checks s
      (updateStatus env (resourceOf event) text event.product ++ updateExtras env event)).2 := by
  rw [projected_eq]
  unfold statusText at htext
  rw [if_neg hne] at htext
  split_ifs at htext with h1 h2 h3 <;> cases htext
  · rw [script_resourceProvisioning h1, projectResourceProvisioning, runScript_singleton, Step.run,
      updateExtras, if_pos h1]
    rfl
  · rw [script_resourceReady h2, projectResourceReady, runScript_singleton, Step.run, updateExtras,
      if_neg (by rw [h2]; decide), if_neg (by rw [h2]; decide), List.append_nil]
    rfl
  · rw [script_resourceFailed h3, projectResourceFailed, runScript_singleton, Step.run, updateExtras,
      if_neg (by rw [h3]; decide), if_pos h3, List.append_assoc]
    rfl

theorem projected_declared (h : event.eventType = "ResourceDeclared") (s : Store) :
    projected env s event = (runOps env.checks s
      (declareResource env event (resourceOf event) (event.strD "resource_type" "Resource") ++
        declareByType env event (resourceOf event) (event.strD "resource_type" "Resource"))).2 := by
  rw [projected_eq, script_resourceDeclared h, projectResourceDeclared, runScript_singleton]
  rfl

theorem projected_deleted (h : event.eventType = "ResourceDeleted") (s : Store) :
    projected env s event =
      (runOps env.checks s (removeTriplesAboutAllGraphs (resourceOf event))).2 := by
  rw [projected_eq, script_resourceDeleted h, projectResourceDeleted, runScript_singleton]
  rfl

end Scripts

/-! ## One event -/

theorem statusTerm_declared : statusTerm "declared" = picloudTerm "Declared" :=
  congrArg picloudTerm (by decide)

/-- Inserting another property. -/
theorem mem_insert_of_predicate_ne {s : Store} {q : Quad} {subject predicate : String}
    {object : Term} {graph : GraphName} (h : q.predicate ≠ ⟨predicate⟩) :
    q ∈ s.insert (quad subject predicate object graph) ↔ q ∈ s := by
  rw [Store.mem_insert, or_iff_left]
  rintro rfl
  exact h rfl

section Event

variable {env : ProjectorEnv} {event : EventEnvelope} {s : Store} {q : Quad}

/-- A property of the lifecycle. -/
def IsLifecycle (q : Quad) : Prop := ∃ name ∈ lifecycleNames, q.predicate = ⟨pc name⟩

theorem IsLifecycle.ne {name : String} (h : IsLifecycle q) (hname : name ∉ lifecycleNames) :
    q.predicate ≠ ⟨pc name⟩ := by
  obtain ⟨name', hmem, hpred⟩ := h
  rw [hpred]
  simp only [ne_eq, NamedNode.mk.injEq, pc_inj]
  rintro rfl
  exact hname hmem

theorem IsLifecycle.ne_rdfType (h : IsLifecycle q) : q.predicate ≠ ⟨rdfType⟩ := by
  obtain ⟨name', -, hpred⟩ := h
  rw [hpred]
  simp

/-- What a declaration adds. -/
theorem mem_declared (htype : event.eventType = "ResourceDeclared")
    (hr : env.checks.iri (resourceOf event) = none) (hq : IsLifecycle q) :
    q ∈ projected env s event ↔ q ∈ s ∨
      q = quad (resourceOf event) (pc "status") (statusTerm "declared") .default ∨
      ∃ p, event.str "product" = some p ∧ ValidProduct env p ∧
        q = quad (resourceOf event) (pc "status") (statusTerm "declared")
          (productGraphName env p) := by
  have hside := sideOps_declareByType env event (resourceOf event)
    (event.strD "resource_type" "Resource")
  rw [projected_declared htype, declareResource, statusTerm_declared]
  simp only [List.append_assoc]
  rw [runOps_insertTriple hr env.iri_rdfType,
    runOps_insertTriple hr (env.iri_pc "resourceType" (by decide)),
    runOps_insertTriple hr (env.iri_pc "status" (by decide))]
  cases hp : event.str "product" with
  | none =>
    simp only [Option.toList_none, List.flatMap_nil, List.nil_append]
    rw [mem_runOps_side hside (Or.inr hq), Store.mem_insert,
      mem_insert_of_predicate_ne (hq.ne (by decide)), mem_insert_of_predicate_ne hq.ne_rdfType]
    simp
  | some p =>
    simp only [Option.toList_some, List.flatMap_cons, List.flatMap_nil, List.append_nil,
      List.append_assoc, Option.some.injEq]
    rw [runOps_insertTriple hr (env.iri_pc "product" (by decide))]
    cases hg : env.checks.iri (env.iris.productGraph p) with
    | some e =>
      rw [runOps_insertTripleInGraph_error hr env.iri_rdfType hg,
        mem_insert_of_predicate_ne (hq.ne (by decide)), Store.mem_insert,
        mem_insert_of_predicate_ne (hq.ne (by decide)), mem_insert_of_predicate_ne hq.ne_rdfType]
      simp [ValidProduct, hg]
    | none =>
      rw [runOps_insertTripleInGraph hr env.iri_rdfType hg,
        runOps_insertTripleInGraph hr (env.iri_pc "resourceType" (by decide)) hg,
        runOps_insertTripleInGraph hr (env.iri_pc "status" (by decide)) hg,
        mem_runOps_side hside (Or.inr hq), Store.mem_insert,
        mem_insert_of_predicate_ne (hq.ne (by decide)), mem_insert_of_predicate_ne hq.ne_rdfType,
        mem_insert_of_predicate_ne (hq.ne (by decide)), Store.mem_insert,
        mem_insert_of_predicate_ne (hq.ne (by decide)), mem_insert_of_predicate_ne hq.ne_rdfType]
      simp [ValidProduct, hg, productGraphName, or_assoc]

/-- `status` or `statusLabel`. -/
def IsStatus (q : Quad) : Prop := ∃ name ∈ ["status", "statusLabel"], q.predicate = ⟨pc name⟩

theorem sideOps_updateExtras (env : ProjectorEnv) (event : EventEnvelope) :
    AllOps (SideOp ["status", "statusLabel"] (resourceOf event)) (updateExtras env event) := by
  unfold updateExtras
  split_ifs
  · simp [optionalText]
  · simp
  · simp

/-- The graphs in which an update replaces the status. -/
def ReplacesIn (env : ProjectorEnv) (product : Option String) (graph : GraphName) : Prop :=
  graph = .default ∨ ∃ p, product = some p ∧ ValidProduct env p ∧ graph = productGraphName env p

/-- Two removals, with what is inserted between them out of reach of the second. -/
theorem replaced_twice {A S P D G E₁ E₂ E₃ : Prop} (h₁ : E₁ → ¬ G) (h₂ : E₂ → ¬ G) :
    (((A ∧ ¬ (S ∧ P ∧ D) ∨ E₁) ∨ E₂) ∧ ¬ (S ∧ P ∧ G) ∨ E₃) ↔
      (A ∧ ¬ (S ∧ P ∧ (D ∨ G)) ∨ E₂ ∨ E₁ ∨ E₃) := by
  constructor
  · rintro (⟨(⟨ha, hd⟩ | h) | h, hg⟩ | h)
    · refine Or.inl ⟨ha, fun ⟨hs, hp, hdg⟩ => ?_⟩
      exact hdg.elim (fun hd' => hd ⟨hs, hp, hd'⟩) fun hg' => hg ⟨hs, hp, hg'⟩
    · exact Or.inr (Or.inr (Or.inl h))
    · exact Or.inr (Or.inl h)
    · exact Or.inr (Or.inr (Or.inr h))
  · rintro (⟨ha, hn⟩ | h | h | h)
    · exact Or.inl ⟨Or.inl (Or.inl ⟨ha, fun ⟨hs, hp, hd⟩ => hn ⟨hs, hp, Or.inl hd⟩⟩),
        fun ⟨hs, hp, hg⟩ => hn ⟨hs, hp, Or.inr hg⟩⟩
    · exact Or.inl ⟨Or.inr h, fun hg => h₂ h hg.2.2⟩
    · exact Or.inl ⟨Or.inl (Or.inr h), fun hg => h₁ h hg.2.2⟩
    · exact Or.inr h

/-- What an update replaces and adds. -/
theorem mem_updated {text : String} (htext : statusText event.eventType = some text)
    (hne : event.eventType ≠ "ResourceDeclared")
    (hr : env.checks.iri (resourceOf event) = none) (hq : IsStatus q) :
    q ∈ projected env s event ↔
      (q ∈ s ∧ ¬ (q.subject = .named ⟨resourceOf event⟩ ∧ q.predicate = ⟨pc "status"⟩ ∧
        ReplacesIn env event.product q.graph)) ∨
      q = quad (resourceOf event) (pc "statusLabel") (simple text) .default ∨
      ∃ g, ReplacesIn env event.product g ∧
        q = quad (resourceOf event) (pc "status") (statusTerm text) g := by
  have hside := sideOps_updateExtras env event
  have hstatus := env.iri_pc "status" (by decide)
  rw [projected_update htext hne, updateStatus]
  simp only [List.cons_append, List.append_assoc]
  rw [runOps_named_ok _ hr, runOps_clearInDefault hstatus, runOps_insertTriple hr hstatus,
    runOps_insertTriple hr (env.iri_pc "statusLabel" (by decide))]
  cases hp : event.product with
  | none =>
    simp only [Option.toList_none, List.flatMap_nil, List.nil_append]
    rw [mem_runOps_side hside (Or.inr hq), Store.mem_insert, Store.mem_insert,
      Store.mem_removeIf, Bool.eq_false_iff, Ne, valuesOf_matches_iff]
    simp [ReplacesIn, statusTerm, or_assoc, or_comm, or_left_comm]
  | some p =>
    simp only [Option.toList_some, List.flatMap_cons, List.flatMap_nil, List.append_nil,
      List.cons_append, List.nil_append]
    cases hg : env.checks.iri (env.iris.productGraph p) with
    | some e =>
      rw [runOps_named_error _ hg, Store.mem_insert, Store.mem_insert, Store.mem_removeIf,
        Bool.eq_false_iff, Ne, valuesOf_matches_iff]
      simp [ReplacesIn, ValidProduct, hg, statusTerm, or_assoc, or_comm, or_left_comm]
    | none =>
      rw [runOps_named_ok _ hg]
      show q ∈ (runOps _ (Store.removeIf _ _) _).2 ↔ _
      rw [runOps_insertTripleInGraph hr hstatus hg, mem_runOps_side hside (Or.inr hq),
        Store.mem_insert, Store.mem_removeIf, Store.mem_insert, Store.mem_insert,
        Store.mem_removeIf, Bool.eq_false_iff, Bool.eq_false_iff, Ne, Ne, valuesOf_matches_iff,
        valuesOf_matches_iff]
      have hdefault : ∀ (predicate : String) (o : Term),
          q = quad (resourceOf event) predicate o .default →
            ¬ q.graph = .named ⟨env.iris.productGraph p⟩ := by
        rintro predicate o rfl
        simp [quad]
      have hreplaces : ∀ g, ReplacesIn env (some p) g ↔
          g = .default ∨ g = .named ⟨env.iris.productGraph p⟩ := by
        intro g
        simp [ReplacesIn, ValidProduct, hg, productGraphName]
      have hadded : (∃ g, ReplacesIn env (some p) g ∧
          q = quad (resourceOf event) (pc "status") (statusTerm text) g) ↔
          q = quad (resourceOf event) (pc "status") (statusTerm text) .default ∨
            q = quad (resourceOf event) (pc "status") (statusTerm text)
              (.named ⟨env.iris.productGraph p⟩) := by
        simp only [hreplaces, or_and_right, exists_or, exists_eq_left]
      rw [hadded, hreplaces]
      have hone := hdefault (pc "status") (statusTerm text)
      have htwo := hdefault (pc "statusLabel") (simple text)
      unfold statusTerm at hone ⊢
      exact replaced_twice hone htwo

/-- What a deletion takes. -/
theorem mem_deleted (htype : event.eventType = "ResourceDeleted")
    (hr : env.checks.iri (resourceOf event) = none) :
    q ∈ projected env s event ↔ q ∈ s ∧ q.subject ≠ .named ⟨resourceOf event⟩ := by
  rw [projected_deleted htype, removeTriplesAboutAllGraphs, runOps_named_ok _ hr]
  show q ∈ Store.removeIf _ _ ↔ _
  rw [Store.mem_removeIf, Bool.eq_false_iff, Ne, Pattern.matches_iff, aboutIri]
  simp only [admits_some, admits_none, and_true]
  exact and_congr_right fun _ => not_congr eq_comm

/-- A reason for a failure is left by a failure. -/
theorem mem_reason_of_updated {text : String} (htext : statusText event.eventType = some text)
    (hne : event.eventType ≠ "ResourceDeclared") (hpred : q.predicate = ⟨pc "failureReason"⟩)
    (hq : q ∈ projected env s event) :
    q ∈ s ∨ event.eventType = "ResourceFailed" ∧ q.subject = .named ⟨resourceOf event⟩ := by
  rw [projected_update htext hne] at hq
  refine forall_mem_runOps (P := fun q => q.predicate = ⟨pc "failureReason"⟩ → q ∈ s ∨
    event.eventType = "ResourceFailed" ∧ q.subject = .named ⟨resourceOf event⟩) (fun u hu hup => ?_)
    (fun u hu _ => Or.inl hu) q hq hpred
  right
  rcases List.mem_append.mp hu with hstatus | hextra
  · simp only [updateStatus, clearInDefault, insertTriple, insertTripleInGraph, List.mem_append,
      List.mem_cons, List.mem_flatMap, Op.put.injEq, reduceCtorEq, List.not_mem_nil, or_false,
      false_or] at hstatus
    rcases hstatus with (rfl | rfl) | ⟨p, -, rfl⟩ <;> simp [quad] at hup
  · unfold updateExtras at hextra
    split_ifs at hextra with hprov hfail
    · simp only [optionalText, insertTriple, List.mem_flatMap, List.mem_cons, Op.put.injEq,
        reduceCtorEq, List.not_mem_nil, or_false, false_or] at hextra
      obtain ⟨value, -, rfl⟩ := hextra
      simp [quad] at hup
    · refine ⟨hfail, ?_⟩
      simp only [insertTriple, insertTripleInGraph, List.mem_append, List.mem_flatMap,
        List.mem_cons, Op.put.injEq, reduceCtorEq, List.not_mem_nil, or_false, false_or] at hextra
      rcases hextra with rfl | ⟨p, -, rfl⟩ <;> rfl
    · simp at hextra

/-- Nothing happens to a resource that is no IRI. -/
theorem projected_invalid (htype : event.eventType ∈ lifecycleTypes) {e : String}
    (hr : env.checks.iri (resourceOf event) = some e) : projected env s event = s := by
  by_cases hdecl : event.eventType = "ResourceDeclared"
  · rw [projected_declared hdecl, declareResource, insertTriple]
    simp only [List.cons_append]
    rw [runOps_named_error _ hr]
  by_cases hdel : event.eventType = "ResourceDeleted"
  · rw [projected_deleted hdel, removeTriplesAboutAllGraphs, runOps_named_error _ hr]
  obtain ⟨text, htext⟩ : ∃ text, statusText event.eventType = some text := by
    simp only [lifecycleTypes, List.mem_cons, List.not_mem_nil, or_false, hdecl, hdel,
      false_or] at htype
    rcases htype with h | h | h <;> simp [statusText, h]
  rw [projected_update htext hdecl, updateStatus]
  simp only [List.cons_append]
  rw [runOps_named_error _ hr]

end Event

/-! ## The store follows the life -/

theorem productGraph_injective (env : ProjectorEnv) : Function.Injective env.iris.productGraph := by
  intro a b h
  have hlist := congrArg String.toList h
  simp only [IriBuilder.productGraph, IriBuilder.product, String.toList_append,
    List.append_assoc, List.append_cancel_left_eq, List.append_cancel_right_eq] at hlist
  exact String.toList_inj.mp hlist

theorem productGraphName_inj {env : ProjectorEnv} {a b : String} :
    productGraphName env a = productGraphName env b ↔ a = b := by
  simp [productGraphName, (productGraph_injective env).eq_iff]

theorem isStatus_status (r : String) (o : Term) (g : GraphName) : IsStatus (quad r (pc "status") o g) :=
  ⟨"status", by simp, rfl⟩

theorem isStatus_label (r : String) (o : Term) (g : GraphName) :
    IsStatus (quad r (pc "statusLabel") o g) :=
  ⟨"statusLabel", by simp, rfl⟩

theorem IsStatus.isLifecycle {q : Quad} (h : IsStatus q) : IsLifecycle q := by
  obtain ⟨name, hname, hpred⟩ := h
  refine ⟨name, ?_, hpred⟩
  simp only [List.mem_cons, List.not_mem_nil, or_false] at hname
  rcases hname with rfl | rfl <;> simp [lifecycleNames]

section Lives

variable {env : ProjectorEnv} {r : String} {s : Store} {l : Life} {event : EventEnvelope}

theorem Lives.declared (h : Lives env r s l) (htype : event.eventType = "ResourceDeclared")
    (hevent : resourceOf event = r) (hr : env.checks.iri r = none) :
    Lives env r (projected env s event) (l.declared env (event.str "product")) := by
  subst hevent
  refine ⟨fun o => ?_, fun o => ?_, fun p o => ?_⟩
  · rw [mem_declared htype hr (isStatus_status _ o _).isLifecycle, h.status]
    simp [Life.declared, quad, productGraphName]
  · rw [mem_declared htype hr (isStatus_label _ o _).isLifecycle, h.labels]
    simp [Life.declared, quad]
  · rw [mem_declared htype hr (isStatus_status _ o _).isLifecycle, h.inProduct]
    by_cases hp : event.str "product" = some p ∧ ValidProduct env p
    · simp [Life.declared, hp, quad, productGraphName]
    · rw [Life.declared_inProduct, if_neg hp]
      refine or_iff_left ?_
      rintro (heq | ⟨p', hp', hvalid, heq⟩)
      · simp [quad, productGraphName] at heq
      · obtain rfl : p = p' := productGraphName_inj.mp (congrArg Quad.graph heq)
        exact hp ⟨hp', hvalid⟩

theorem Lives.updated (h : Lives env r s l) {text : String}
    (htext : statusText event.eventType = some text) (hne : event.eventType ≠ "ResourceDeclared")
    (hevent : resourceOf event = r) (hr : env.checks.iri r = none) :
    Lives env r (projected env s event) (l.updated env text event.product) := by
  subst hevent
  refine ⟨fun o => ?_, fun o => ?_, fun p o => ?_⟩
  · rw [mem_updated htext hne hr (isStatus_status _ o _)]
    simp [Life.updated, quad, ReplacesIn, productGraphName]
  · rw [mem_updated htext hne hr (isStatus_label _ o _), h.labels]
    simp [Life.updated, quad]
  · rw [mem_updated htext hne hr (isStatus_status _ o _), h.inProduct]
    have hgraph : ReplacesIn env event.product (productGraphName env p) ↔
        event.product = some p ∧ ValidProduct env p := by
      constructor
      · rintro (heq | ⟨p', hp', hvalid, heq⟩)
        · simp [productGraphName] at heq
        · obtain rfl : p = p' := productGraphName_inj.mp heq
          exact ⟨hp', hvalid⟩
      · exact fun hp => Or.inr ⟨p, hp.1, hp.2, rfl⟩
    by_cases hp : event.product = some p ∧ ValidProduct env p
    · rw [Life.updated_inProduct, if_pos hp]
      simp [quad, hgraph.mpr hp]
    · rw [Life.updated_inProduct, if_neg hp]
      simp [quad, mt hgraph.mp hp]

theorem Lives.deleted (htype : event.eventType = "ResourceDeleted")
    (hevent : resourceOf event = r) (hr : env.checks.iri r = none) :
    Lives env r (projected env s event) Life.empty := by
  subst hevent
  have hgone : ∀ predicate o g, quad (resourceOf event) predicate o g ∉ projected env s event :=
    fun predicate o g hq => ((mem_deleted htype hr).mp hq).2 rfl
  exact ⟨fun o => by simp [Life.empty, hgone], fun o => by simp [Life.empty, hgone],
    fun p o => by simp [Life.empty, hgone]⟩

/-- The types of the lifecycle, by what they do. -/
theorem lifecycle_cases (h : event.eventType ∈ lifecycleTypes) :
    event.eventType = "ResourceDeclared" ∨
      (event.eventType ≠ "ResourceDeclared" ∧ ∃ text, statusText event.eventType = some text) ∨
      event.eventType = "ResourceDeleted" := by
  simp only [lifecycleTypes, List.mem_cons, List.not_mem_nil, or_false] at h
  rcases h with h | h | h | h | h
  · exact Or.inl h
  · exact Or.inr (Or.inl ⟨by simp [h], "provisioning", by simp [statusText, h]⟩)
  · exact Or.inr (Or.inl ⟨by simp [h], "ready", by simp [statusText, h]⟩)
  · exact Or.inr (Or.inl ⟨by simp [h], "failed", by simp [statusText, h]⟩)
  · exact Or.inr (Or.inr h)

/-- Events of other resources leave the lifecycle of a resource alone. -/
theorem mem_projected_of_ne (htype : event.eventType ∈ lifecycleTypes) {q : Quad} (hq : IsStatus q)
    (hsubj : q.subject ≠ .named ⟨resourceOf event⟩) :
    q ∈ projected env s event ↔ q ∈ s := by
  have hneq : ∀ predicate o g, q ≠ quad (resourceOf event) predicate o g := by
    rintro predicate o g rfl
    exact hsubj rfl
  cases hr : env.checks.iri (resourceOf event) with
  | some e => rw [projected_invalid htype hr]
  | none =>
    rcases lifecycle_cases htype with htype | ⟨hne, text, htext⟩ | htype
    · rw [mem_declared htype hr hq.isLifecycle]
      simp [hneq]
    · rw [mem_updated htext hne hr hq]
      simp [hneq, hsubj]
    · rw [mem_deleted htype hr]
      simp [hsubj]

/-- Events of other resources add nothing to the lifecycle of a resource, reasons included. -/
theorem mem_of_mem_projected (htype : event.eventType ∈ lifecycleTypes) {q : Quad}
    (hq : IsLifecycle q) (hsubj : q.subject ≠ .named ⟨resourceOf event⟩)
    (hmem : q ∈ projected env s event) : q ∈ s := by
  by_cases hstatus : IsStatus q
  · exact (mem_projected_of_ne htype hstatus hsubj).mp hmem
  have hpred : q.predicate = ⟨pc "failureReason"⟩ := by
    obtain ⟨name, hname, hpred⟩ := hq
    simp only [lifecycleNames, List.mem_cons, List.not_mem_nil, or_false] at hname
    rcases hname with rfl | rfl | rfl
    · exact absurd ⟨_, by simp, hpred⟩ hstatus
    · exact absurd ⟨_, by simp, hpred⟩ hstatus
    · exact hpred
  cases hr : env.checks.iri (resourceOf event) with
  | some e => rwa [projected_invalid htype hr] at hmem
  | none =>
    rcases lifecycle_cases htype with htype | ⟨hne, text, htext⟩ | htype
    · rcases (mem_declared htype hr hq).mp hmem with hold | rfl | ⟨p, -, -, rfl⟩
      · exact hold
      · exact absurd rfl hsubj
      · exact absurd rfl hsubj
    · exact (mem_reason_of_updated htext hne hpred hmem).resolve_right fun h => hsubj h.2
    · exact ((mem_deleted htype hr).mp hmem).1

/-- The life of a resource after one more event. -/
def Life.next (env : ProjectorEnv) (r : String) (l : Life) (event : EventEnvelope) : Life :=
  if resourceOf event = r then l.step env event else l

/-- One event: the store follows the life. -/
theorem Lives.next (h : Lives env r s l) (hr : env.checks.iri r = none)
    (htype : event.eventType ∈ lifecycleTypes) :
    Lives env r (projected env s event) (l.next env r event) := by
  unfold Life.next
  by_cases hevent : resourceOf event = r
  · rw [if_pos hevent, Life.step]
    rcases lifecycle_cases htype with htype | ⟨hne, text, htext⟩ | htype
    · rw [if_pos htype]
      exact h.declared htype hevent hr
    · rw [if_neg hne, htext]
      exact h.updated htext hne hevent hr
    · rw [if_neg (by simp [htype]), htype]
      exact Lives.deleted htype hevent hr
  · rw [if_neg hevent]
    have hsubj : ∀ predicate o g, (quad r predicate o g).subject ≠ .named ⟨resourceOf event⟩ := by
      intro predicate o g heq
      exact hevent (congrArg NamedNode.value (Subject.named.inj heq)).symm
    refine ⟨fun o => ?_, fun o => ?_, fun p o => ?_⟩
    · rw [mem_projected_of_ne htype (isStatus_status _ _ _) (hsubj _ _ _), h.status]
    · rw [mem_projected_of_ne htype (isStatus_label _ _ _) (hsubj _ _ _), h.labels]
    · rw [mem_projected_of_ne htype (isStatus_status _ _ _) (hsubj _ _ _), h.inProduct]

/-- The life of a resource over a list of events. -/
def lifeOf (env : ProjectorEnv) (r : String) (events : List EventEnvelope) : Life :=
  events.foldl (Life.next env r) Life.empty

/-- **The store follows the life of every resource.** -/
theorem lives_foldl (hr : env.checks.iri r = none) {events : List EventEnvelope}
    (hall : ∀ event ∈ events, event.eventType ∈ lifecycleTypes) :
    Lives env r (events.foldl (projected env) []) (lifeOf env r events) := by
  induction events using List.reverseRecOn with
  | nil => exact ⟨by simp [lifeOf, Life.empty], by simp [lifeOf, Life.empty],
      by simp [lifeOf, Life.empty]⟩
  | append_singleton events event ih =>
    rw [lifeOf, List.foldl_append, List.foldl_append]
    exact (ih fun e he => hall e (List.mem_append_left _ he)).next hr (hall event (by simp))

end Lives

end Picloud
