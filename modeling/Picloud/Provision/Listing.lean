import Picloud.Provision.Subscribers
import Picloud.Rdf.Lifecycle

/-!
# Resources in the graph

What the events of a node do to the type, the resource type and the product of a resource in the
default graph. Declarations add them. Only deletions take them away: that of the resource itself, and
that of a product, which removes what has the product as a property or has its path in its IRI.
-/

namespace Picloud

open Lib

/-! ## The events of a node -/

/-- The events in the log of a node that no other node has failed under. -/
inductive KnownEvent (cfg : NodeConfig) : EventEnvelope → Prop
  | handled {h : HandlerEvent} {e : EventEnvelope} (he : h.event cfg.api = some e) : KnownEvent cfg e
  | reported (id : Uuid) (now : ℤ) (event : EventEnvelope) (iri : String) (error : Option String) :
      KnownEvent cfg
        (provisionResult (serverProvisioner cfg.env.iris cfg.isUrl) id now event iri error)
  | removed (slot : Slot) (event : EventEnvelope) (product iri : String) :
      KnownEvent cfg (resourceDeletedEvent cfg.env.iris slot event product iri)

/-- The path of a product is in the IRI, or the IRI is that of the product. -/
def within (product iri : String) : Bool :=
  containsText (iri ++ "/") ("/products/" ++ product ++ "/")

/-! ## Handlers that remove no resource -/

/-- The operation gives no other product than one to a resource, and removes values of `status`
only. -/
def ResourceOp (r : String) (product : Option String) : Op → Prop
  | .put q => q.predicate = ⟨pc "product"⟩ →
    q.subject = .named ⟨r⟩ ∧ ∃ p, product = some p ∧ q.object = simple p
  | .del p => p.predicate = some ⟨pc "status"⟩
  | _ => True

section ResourceOp

variable {r : String} {product : Option String}

@[simp] theorem resourceOp_named (context iri : String) :
    ResourceOp r product (.named context iri) := trivial

@[simp] theorem resourceOp_blank (context id : String) :
    ResourceOp r product (.blank context id) := trivial

variable {object : Term} {predicate subject : String}

@[simp] theorem resourceOp_put_quad {graph : GraphName} :
    ResourceOp r product (.put (quad subject predicate object graph)) ↔
      (predicate = pc "product" → subject = r ∧ ∃ p, product = some p ∧ object = simple p) := by
  simp [ResourceOp, quad]

@[simp] theorem resourceOps_insertTriple :
    AllOps (ResourceOp r product) (insertTriple subject predicate object) ↔
      (predicate = pc "product" → subject = r ∧ ∃ p, product = some p ∧ object = simple p) := by
  simp [insertTriple]

@[simp] theorem resourceOps_insertTripleInGraph {graph : String} :
    AllOps (ResourceOp r product) (insertTripleInGraph subject predicate object graph) ↔
      (predicate = pc "product" → subject = r ∧ ∃ p, product = some p ∧ object = simple p) := by
  simp [insertTripleInGraph]

@[simp] theorem resourceOps_insertNode {name context object : String} (h : name ≠ "product") :
    AllOps (ResourceOp r product) (insertNode subject (pc name) context object) := by
  simp [insertNode, h]

@[simp] theorem resourceOps_tryInsertNode {env : ProjectorEnv} {name object : String}
    (h : name ≠ "product") :
    AllOps (ResourceOp r product) (tryInsertNode env subject (pc name) object) := by
  unfold tryInsertNode
  split <;> simp [h]

@[simp] theorem resourceOps_updateStatus (env : ProjectorEnv) (iri status : String)
    (p : Option String) : AllOps (ResourceOp r product) (updateStatus env iri status p) := by
  simp [updateStatus, clearInDefault, ResourceOp, valuesOf]

@[simp] theorem resourceOps_dependencyTriples (env : ProjectorEnv) (iri : String) (dep : Json) :
    AllOps (ResourceOp r product) (dependencyTriples env iri dep) := by
  simp [dependencyTriples]

/-- What is beside the product of a resource gives it none. -/
theorem resourceOps_of_sideOps {names : List String} (hname : "product" ∈ names) {ops : List Op}
    (h : AllOps (SideOp names r) ops) : AllOps (ResourceOp r product) ops := by
  intro op hop
  have hside := h op hop
  cases op with
  | put q => exact fun hpred => absurd hpred (hside.2 "product" hname)
  | del p => exact hside.elim
  | named context iri => trivial
  | blank context id => trivial
  | fail message => trivial

end ResourceOp

section Scripts

variable {env : ProjectorEnv} {event : EventEnvelope}

/-- The script of the event is a list of such operations. -/
def ResourceScript (env : ProjectorEnv) (event : EventEnvelope) : Prop :=
  ∃ l, script env event = [.ops l] ∧ AllOps (ResourceOp event.source.value (event.str "product")) l

theorem resourceOps_declare (r resourceType : String) :
    AllOps (ResourceOp r (event.str "product"))
      (declareResource env event r resourceType ++ declareByType env event r resourceType) := by
  refine allOps_append.mpr ⟨?_, resourceOps_of_sideOps List.mem_cons_self
    (sideOps_declareByType_product env event r resourceType)⟩
  simp only [declareResource, allOps_append, allOps_flatMap, Option.mem_toList]
  refine ⟨by simp, fun p hp => ?_⟩
  simp [Option.mem_def.mp hp]

theorem resourceScript_resourceDeclared (htype : event.eventType = "ResourceDeclared")
    (hsource : resourceOf event = event.source.value) : ResourceScript env event := by
  refine ⟨_, script_resourceDeclared htype, ?_⟩
  rw [← hsource]
  exact resourceOps_declare (resourceOf event) _

theorem resourceScript_productDeployed (htype : event.eventType = "ProductDeployed") :
    ResourceScript env event := by
  have hscript : script env event = projectProductDeployed env event := by
    rw [script, htype]
    rfl
  refine ⟨_, hscript, ?_⟩
  simp

theorem resourceScript_capabilityDeclared (htype : event.eventType = "CapabilityDeclared") :
    ResourceScript env event := by
  have hscript : script env event = projectCapabilityDeclared event := by
    rw [script, htype]
    rfl
  refine ⟨_, hscript, ?_⟩
  simp

theorem resourceScript_dataDomainDeclared (htype : event.eventType = "DataDomainDeclared") :
    ResourceScript env event := by
  have hscript : script env event = projectDataDomainDeclared event := by
    rw [script, htype]
    rfl
  refine ⟨_, hscript, ?_⟩
  simp [nonEmptyText]

theorem resourceScript_dataProductDeclared (htype : event.eventType = "DataProductDeclared")
    (hsource : event.iriOrSource "data_product_iri" = event.source.value)
    {p : String} (hp : event.str "product" = some p) : ResourceScript env event := by
  have hscript : script env event = projectDataProductDeclared env event := by
    rw [script, htype]
    rfl
  refine ⟨_, hscript, ?_⟩
  simp [hsource, EventEnvelope.strD, hp, optionalText]

theorem resourceScript_tagAdded (htype : event.eventType = "TagAdded") :
    ResourceScript env event := by
  have hscript : script env event = projectTagAdded env event := by
    rw [script, htype]
    rfl
  refine ⟨_, hscript, ?_⟩
  simp [tagQuads, ResourceOp]

theorem resourceScript_resourceReady (htype : event.eventType = "ResourceReady") :
    ResourceScript env event := by
  refine ⟨_, script_resourceReady htype, ?_⟩
  simp

theorem resourceScript_resourceFailed (htype : event.eventType = "ResourceFailed") :
    ResourceScript env event := by
  refine ⟨_, script_resourceFailed htype, ?_⟩
  simp

end Scripts

variable {cfg : NodeConfig} {e : EventEnvelope}

/-- The event of a declaration is no deletion, and its script removes no resource. -/
theorem resourceScript_declaredEvent {env : ProjectorEnv} {req : ApplyRequest} {slot : Slot}
    {decl : ResourceDeclaration} {d : Declared} (hd : declared cfg.api decl = some d) :
    ResourceScript env (declaredEvent cfg.api req slot decl d) := by
  cases decl with
  | scope s => cases hd
  | m2mPermission m => cases hd
  | product p =>
    cases hd
    exact resourceScript_productDeployed rfl
  | capability c =>
    cases hd
    exact resourceScript_capabilityDeclared rfl
  | dataDomain d =>
    cases hd
    exact resourceScript_dataDomainDeclared rfl
  | dataProduct d =>
    cases hd
    exact resourceScript_dataProductDeclared rfl rfl rfl
  | _ =>
    cases hd
    exact resourceScript_resourceDeclared rfl rfl

/-- An event is a deletion, or its script removes no resource. -/
theorem KnownEvent.cases_script (h : KnownEvent cfg e) :
    ResourceScript cfg.env e ∨ e.eventType = "ResourceDeleted" ∨
      ∃ req, e = deletedEvent cfg.api req := by
  cases h with
  | @handled h e he =>
    cases h with
    | declaration req slot decl =>
      obtain ⟨d, hd, rfl⟩ := Option.map_eq_some_iff.mp he
      exact Or.inl (resourceScript_declaredEvent hd)
    | tag req slot decl entry =>
      cases he
      exact Or.inl (resourceScript_tagAdded rfl)
    | deletion req =>
      cases he
      exact Or.inr (Or.inr ⟨req, rfl⟩)
  | reported id now event iri error =>
    left
    cases error with
    | none => exact resourceScript_resourceReady rfl
    | some reason => exact resourceScript_resourceFailed rfl
  | removed slot event product iri => exact Or.inr (Or.inl rfl)

/-! ## What stays, and what is added -/

section Effects

variable {env : ProjectorEnv} {s : Store} {q : Quad}

theorem mem_runOps_of_resourceOps {C : TermChecks} {ops : List Op} {r : String}
    {product : Option String} (h : AllOps (ResourceOp r product) ops) (hq : q ∈ s)
    (hpred : q.predicate ≠ ⟨pc "status"⟩) : q ∈ (runOps C s ops).2 := by
  refine mem_runOps_of_mem (fun p hp => ?_) hq
  have hstatus : p.predicate = some ⟨pc "status"⟩ := h _ hp
  rw [Bool.eq_false_iff, Ne, Pattern.matches_iff, hstatus]
  exact fun hmatches => hpred (admits_some.mp hmatches.2.1).symm

/-- Without a deletion, other properties than the status stay. -/
theorem ResourceScript.mem (h : ResourceScript env e) (hq : q ∈ s)
    (hpred : q.predicate ≠ ⟨pc "status"⟩) : q ∈ projected env s e := by
  obtain ⟨l, hscript, hops⟩ := h
  rw [projected_eq, hscript, runScript_singleton]
  exact mem_runOps_of_resourceOps hops hq hpred

/-- Without a deletion, only the product of the event is added, to the source of the event. -/
theorem ResourceScript.product (h : ResourceScript env e) (hq : q ∈ projected env s e)
    (hpred : q.predicate = ⟨pc "product"⟩) :
    q ∈ s ∨ q.subject = .named ⟨e.source.value⟩ ∧
      ∃ p, e.str "product" = some p ∧ q.object = simple p := by
  obtain ⟨l, hscript, hops⟩ := h
  rw [projected_eq, hscript, runScript_singleton] at hq
  exact forall_mem_runOps (P := fun q => q.predicate = ⟨pc "product"⟩ → q ∈ s ∨
    q.subject = .named ⟨e.source.value⟩ ∧ ∃ p, e.str "product" = some p ∧ q.object = simple p)
    (fun u hu hpred => Or.inr (hops _ hu hpred)) (fun u hu _ => Or.inl hu) q hq hpred

theorem aboutIri_matches_iff {subject : String} :
    (aboutIri subject).matches q = true ↔ q.subject = .named ⟨subject⟩ := by
  rw [Pattern.matches_iff, aboutIri]
  simp only [admits_some, admits_none, and_true]
  exact eq_comm

/-- The graph has the resource, with its type. -/
def Listed (s : Store) (iri resourceType : String) : Prop :=
  quad iri rdfType (picloudTerm "Resource") .default ∈ s ∧
    quad iri (pc "resourceType") (simple resourceType) .default ∈ s

/-- A declaration lists its resource. -/
theorem listed_projected (htype : e.eventType = "ResourceDeclared")
    (hr : env.checks.iri (resourceOf e) = none) :
    Listed (projected env s e) (resourceOf e) (e.strD "resource_type" "Resource") := by
  have hops := @resourceOps_declare env e (resourceOf e) (e.strD "resource_type" "Resource")
  rw [Listed, projected_declared htype, declareResource]
  rw [declareResource] at hops
  simp only [List.append_assoc, allOps_append] at hops ⊢
  rw [runOps_insertTriple hr env.iri_rdfType,
    runOps_insertTriple hr (env.iri_pc "resourceType" (by decide))]
  have hrest := allOps_append.mpr ⟨hops.2.2.1, allOps_append.mpr hops.2.2.2⟩
  refine ⟨mem_runOps_of_resourceOps hrest ?_ (by simp [quad]),
    mem_runOps_of_resourceOps hrest ?_ (by simp [quad])⟩
  · exact Store.mem_insert.mpr (Or.inl (Store.mem_insert.mpr (Or.inr rfl)))
  · exact Store.mem_insert.mpr (Or.inr rfl)

/-- The deletion of a resource takes what is about it, and no more. -/
theorem mem_projected_resourceDeleted (htype : e.eventType = "ResourceDeleted") (hq : q ∈ s)
    (hsubj : q.subject ≠ .named ⟨resourceOf e⟩) : q ∈ projected env s e := by
  cases hr : env.checks.iri (resourceOf e) with
  | none => exact (mem_deleted htype hr).mpr ⟨hq, hsubj⟩
  | some err =>
    rw [projected_invalid (by simp [lifecycleTypes, htype]) hr]
    exact hq

theorem mem_of_mem_projected_resourceDeleted (htype : e.eventType = "ResourceDeleted")
    (hq : q ∈ projected env s e) : q ∈ s := by
  cases hr : env.checks.iri (resourceOf e) with
  | none => exact ((mem_deleted htype hr).mp hq).1
  | some err => rwa [projected_invalid (by simp [lifecycleTypes, htype]) hr] at hq

/-- Operations that insert nothing leave a part of the store. -/
theorem runOps_subset {C : TermChecks} {ops : List Op} (h : ∀ u, Op.put u ∉ ops) :
    (runOps C s ops).2 ⊆ s :=
  forall_mem_runOps (P := (· ∈ s)) (fun u hu => absurd hu (h u)) fun _ hu => hu

theorem put_notMem_tryRemoveAbout (iri : String) (u : Quad) : Op.put u ∉ tryRemoveAbout env iri := by
  unfold tryRemoveAbout
  split <;> simp

theorem del_mem_tryRemoveAbout {iri : String} {p : Pattern} (h : Op.del p ∈ tryRemoveAbout env iri) :
    p = aboutIri iri := by
  unfold tryRemoveAbout at h
  split at h
  · simpa using h
  · simp at h

end Effects

/-! ## The deletion of a product -/

section ProductDeleted

variable {s : Store} {q : Quad} {req : DeleteRequest}

theorem script_deletedEvent :
    script cfg.env (deletedEvent cfg.api req) =
      [.ops (removeTriplesAboutAllGraphs (cfg.api.iris.product req.product) ++
        [.named "invalid graph IRI: " (cfg.env.iris.productGraph req.product),
          .del { graph := some (.named ⟨cfg.env.iris.productGraph req.product⟩) }]),
        .read (removeChildrenByProperty cfg.env req.product),
        .read (removeChildrenByPath cfg.env req.product)] := by
  rw [script_productDeleted rfl]
  change [Step.ops _, .read fun s => removeChildrenByProperty cfg.env req.product s ++ [],
    .read fun s => removeChildrenByPath cfg.env req.product s ++ []] = _
  simp only [List.append_nil]
  rfl

theorem containsText_iff {text part : String} :
    containsText text part = true ↔ part.toList <:+: text.toList := by
  simp [containsText]

/-- The path of a product is in its IRI. -/
theorem within_product (iris : IriBuilder) (product : String) :
    within product (iris.product product) = true := by
  refine containsText_iff.mpr ⟨("https://" ++ iris.domain).toList, [], ?_⟩
  simp [IriBuilder.product]

variable {iri : String}

theorem within_of_containsText {product : String}
    (h : containsText iri ("/products/" ++ product ++ "/") = true) : within product iri = true := by
  obtain ⟨l, l', heq⟩ := containsText_iff.mp h
  refine containsText_iff.mpr ⟨l, l' ++ "/".toList, ?_⟩
  have hiri : (iri ++ "/").toList = iri.toList ++ "/".toList := String.toList_append
  rw [hiri, ← heq]
  simp only [List.append_assoc]

theorem put_notMem_removeChildrenByProperty (env : ProjectorEnv) (product : String) (t : Store)
    (u : Quad) : Op.put u ∉ removeChildrenByProperty env product t := by
  simp [removeChildrenByProperty, put_notMem_tryRemoveAbout]

theorem put_notMem_removeChildrenByPath (env : ProjectorEnv) (product : String) (t : Store)
    (u : Quad) : Op.put u ∉ removeChildrenByPath env product t := by
  simp only [removeChildrenByPath, List.mem_flatMap, not_exists, not_and]
  intro v _
  split
  · split
    · exact put_notMem_tryRemoveAbout _ u
    · simp
  · simp

/-- A step of the deletion of a product leaves a part of the store. -/
theorem step_deletedEvent_subset {step : Step}
    (hstep : step ∈ script cfg.env (deletedEvent cfg.api req)) (t : Store) :
    (step.run cfg.env.checks t).2 ⊆ t := by
  rw [script_deletedEvent] at hstep
  simp only [List.mem_cons, List.not_mem_nil, or_false] at hstep
  rcases hstep with rfl | rfl | rfl
  · exact runOps_subset (by simp [removeTriplesAboutAllGraphs])
  · exact runOps_subset (put_notMem_removeChildrenByProperty _ _ t)
  · exact runOps_subset (put_notMem_removeChildrenByPath _ _ t)

theorem mem_of_mem_projected_deletedEvent (hq : q ∈ projected cfg.env s (deletedEvent cfg.api req)) :
    q ∈ s := by
  rw [projected_eq] at hq
  exact runScript_invariant (I := fun t => t ⊆ s)
    (fun step hstep t ht _ hu => ht (step_deletedEvent_subset hstep t hu)) (List.Subset.refl s) hq

/-- What starts with the IRI of a product has the path of the product in it. -/
theorem within_of_startsWith {iris : IriBuilder} {product iri : String}
    (h : (iris.product product ++ "/").toList.isPrefixOf iri.toList = true) :
    within product iri = true := by
  obtain ⟨l, hl⟩ := List.isPrefixOf_iff_prefix.mp h
  refine within_of_containsText (containsText_iff.mpr
    ⟨("https://" ++ iris.domain).toList, l, ?_⟩)
  rw [← hl]
  simp [IriBuilder.product]

theorem startsWith_resource (iris : IriBuilder) (product kind name : String) :
    (iris.product product ++ "/").toList.isPrefixOf (iris.resource product kind name).toList =
      true := by
  refine List.isPrefixOf_iff_prefix.mpr ⟨(kind ++ "/" ++ name).toList, ?_⟩
  simp [IriBuilder.resource]

/-! ### The query for the children -/

theorem mem_childRows {env : ProjectorEnv} {resourceType productIri : String}
    (h : Listed s iri resourceType)
    (hstart : (productIri ++ "/").toList.isPrefixOf iri.toList = true) :
    (iri, resourceType) ∈ childRows env s productIri := by
  refine List.mem_flatMap.mpr ⟨quad iri rdfType (picloudTerm "Resource") .default, ?_, ?_⟩
  · rw [(env.scan_perm _).mem_iff, Store.mem_quadsForPattern, Pattern.matches_iff]
    exact ⟨h.1, by simp [quad]⟩
  · rw [quad]
    simp only
    rw [if_pos hstart]
    refine List.mem_map.mpr ⟨quad iri (pc "resourceType") (simple resourceType) .default, ?_, rfl⟩
    rw [(env.scan_perm _).mem_iff, Store.mem_quadsForPattern, valuesOf_matches_iff]
    exact ⟨h.2, rfl, rfl, rfl⟩

theorem startsWith_of_mem_childRows {env : ProjectorEnv} {productIri : String}
    {row : String × String} (h : row ∈ childRows env s productIri) :
    (productIri ++ "/").toList.isPrefixOf row.1.toList = true := by
  obtain ⟨u, -, hrow⟩ := List.mem_flatMap.mp h
  split at hrow
  · split_ifs at hrow with hstart
    · obtain ⟨v, -, rfl⟩ := List.mem_map.mp hrow
      exact hstart
    · cases hrow
  · cases hrow

/-- The subject has no property that the deletion of the product goes by. -/
def NotOf (product r : String) (s : Store) : Prop :=
  ∀ u ∈ s, u.predicate = ⟨pc "product"⟩ → u.object = simple product → u.subject.text ≠ r

/-- The deletion of a product leaves alone what is not within its path and has another product. -/
theorem mem_projected_deletedEvent {r : String} (hwithin : within req.product r = false)
    (hnot : NotOf req.product r s) (hq : q ∈ s) (hsubj : q.subject = .named ⟨r⟩)
    (hgraph : q.graph = .default) : q ∈ projected cfg.env s (deletedEvent cfg.api req) := by
  have hne : ∀ iri, r ≠ iri → (aboutIri iri).matches q = false := by
    intro iri hiri
    rw [Bool.eq_false_iff, Ne, aboutIri_matches_iff, hsubj]
    exact fun heq => hiri (congrArg NamedNode.value (Subject.named.inj heq))
  have hapart : ∀ iri, within req.product iri = true → r ≠ iri := by
    rintro iri hiri rfl
    rw [hwithin] at hiri
    cases hiri
  rw [projected_eq]
  refine (runScript_invariant (I := fun t => q ∈ t ∧ NotOf req.product r t)
    (fun step hstep t ht => ?_) ⟨hq, hnot⟩).1
  obtain ⟨hqt, hnott⟩ := ht
  refine ⟨?_, fun u hu => hnott u (step_deletedEvent_subset hstep t hu)⟩
  rw [script_deletedEvent] at hstep
  simp only [List.mem_cons, List.not_mem_nil, or_false] at hstep
  rcases hstep with rfl | rfl | rfl
  · refine mem_runOps_of_mem (fun p hp => ?_) hqt
    simp only [removeTriplesAboutAllGraphs, List.mem_append, List.mem_cons, List.not_mem_nil,
      or_false, Op.del.injEq, reduceCtorEq, false_or] at hp
    rcases hp with rfl | rfl
    · exact hne _ (hapart _ (within_product cfg.api.iris req.product))
    · rw [Bool.eq_false_iff, Ne, Pattern.matches_iff, hgraph]
      simp
  · refine mem_runOps_of_mem (fun p hp => ?_) hqt
    rw [removeChildrenByProperty] at hp
    obtain ⟨u, hu, hp⟩ := List.mem_flatMap.mp hp
    obtain rfl := del_mem_tryRemoveAbout hp
    rw [(cfg.env.scan_perm _).mem_iff, Store.mem_quadsForPattern, Pattern.matches_iff] at hu
    obtain ⟨hut, -, hpred, hobj, -⟩ := hu
    exact hne _ (hnott u hut (admits_some.mp hpred).symm (admits_some.mp hobj).symm).symm
  · refine mem_runOps_of_mem (fun p hp => ?_) hqt
    rw [removeChildrenByPath] at hp
    obtain ⟨u, -, hp⟩ := List.mem_flatMap.mp hp
    split at hp
    · split_ifs at hp with hpath
      · obtain rfl := del_mem_tryRemoveAbout hp
        exact hne _ (hapart _ (within_of_containsText hpath))
      · cases hp
    · cases hp

end ProductDeleted

end Picloud
