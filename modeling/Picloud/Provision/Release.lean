import Picloud.Provision.Listing

/-!
# Releasing the resources of a deleted product

The provisioner finds the resources of a deleted product by asking the graph, and the projection loop
removes them from the graph on the same event. If the loop is first, nothing is found and nothing is
released. Routes are released in no case. A run releases everything if the provisioner takes a
deletion while the loop is between the declarations and the deletion, products with routes are not
deleted, nothing of a deleted product is declared, a product is not applied again before its deletion
is finished, the IRIs of products do not cross, and the calls of the provisioner succeed.
-/

namespace Picloud

open Lib

/-! ## What the log says -/

/-- A resource of a product. -/
structure Child where
  product : String
  resourceType : String
  iri : String
deriving DecidableEq

/-- The resource that an event declares for a product. -/
def childOf (e : EventEnvelope) : Option Child :=
  if e.eventType = "ResourceDeclared" then do
    let product ← e.product
    let resourceType ← e.payload.text "resource_type"
    let iri ← e.payload.text "resource_iri"
    return ⟨product, resourceType, iri⟩
  else none

/-- The product that an event deploys. -/
def deployedBy (e : EventEnvelope) : Option String :=
  if e.eventType = "ProductDeployed" then e.str "product_name" else none

/-- The product that an event deletes. -/
def deletedBy (e : EventEnvelope) : Option String :=
  if e.eventType = "ProductDeleted" then e.product else none

/-- The types that the provisioner releases. -/
def releasedTypes : List String := ["Container", "Binary", "Volume"]

/-- The last event on the life of the product is a deletion. -/
def isDeleted (product : String) (log : List EventEnvelope) : Bool :=
  log.foldl (fun deleted e =>
    if deployedBy e = some product then false
    else if deletedBy e = some product then true
    else deleted) false

/-- The resource has been declared, and its product not been deleted since. -/
def isStanding (x : Child) (log : List EventEnvelope) : Bool :=
  log.foldl (fun standing e =>
    if childOf e = some x then true
    else if deletedBy e = some x.product then false
    else standing) false

/-- The log declares the workload or volume for the product. -/
def OfProduct (log : List EventEnvelope) (product iri : String) : Prop :=
  ∃ e ∈ log, ∃ t ∈ releasedTypes, childOf e = some ⟨product, t, iri⟩

/-- The products of the routes. -/
def Backends.routeProducts (b : Backends) : List String :=
  b.table.map (fun e => e.2.product) ++
    (b.router.external.flatMap fun e => e.2.map RouteEntry.product) ++
    b.router.internal.map RouteEntry.product

/-- Both subscribers have processed everything. -/
def NodeState.Settled (s : NodeState) : Prop :=
  s.projected = s.log.length ∧ s.provisioner.taken = s.log.length ∧ s.provisioner.work = .idle

/-- What is claimed: when everything is processed, the backends hold nothing of a deleted product; and
whatever was stopped or removed was of a product that was deleted at that time. -/
structure ReleasesDeleted (s : NodeState) : Prop where
  released : s.Settled → ∀ product, isDeleted product s.log = true →
    (∀ w ∈ s.provisioner.backends.workloads, ¬ OfProduct s.log product w.1.value) ∧
    (∀ v ∈ s.provisioner.backends.volumes, ¬ OfProduct s.log product v.value) ∧
    product ∉ s.provisioner.backends.routeProducts
  others : ∀ x ∈ s.provisioner.released, ∀ product, OfProduct s.log product x.1.value →
    isDeleted product (s.log.take x.2) = true

/-! ## When it holds -/

/-- The provisioner is releasing the resources of the product. -/
def Work.releases (product : String) : Work → Bool
  | .cascade _ p _ _ => p = product
  | _ => false

/-- All deletions of the product have been taken and finished. -/
def Finished (s : NodeState) (product : String) : Prop :=
  (∀ e ∈ s.log.drop s.provisioner.taken, deletedBy e ≠ some product) ∧
    s.provisioner.work.releases product = false

/-- The resource is out of reach of the deletion of a product: the path of the product is not in its
IRI, and no event gives it that product. -/
def OutOfReach (log : List EventEnvelope) (product iri : String) : Prop :=
  within product iri = false ∧ ∀ f ∈ log, f.source.value = iri → f.str "product" ≠ some product

/-- The workloads and volumes of one product are out of reach of the deletion of another. -/
def Apart (log : List EventEnvelope) : Prop :=
  ∀ e ∈ log, ∀ x ∈ childOf e, x.resourceType ∈ releasedTypes →
    ∀ d ∈ log, ∀ product ∈ deletedBy d, product ≠ x.product → OutOfReach log product x.iri

/-- The event may be appended. -/
structure MayAppend (cfg : NodeConfig) (s : NodeState) (e : EventEnvelope) : Prop where
  /-- A product is not deployed again before its deletion is finished. -/
  deployed : ∀ product ∈ deployedBy e, Finished s product
  /-- Nothing that is provisioned is declared for a product that is deleted or whose deletion is not
  finished. -/
  declared : ∀ x ∈ childOf e, x.resourceType ∈ "Ingress" :: releasedTypes →
    isDeleted x.product s.log = false ∧ Finished s x.product
  /-- The graph takes the IRI. -/
  valid : ∀ x ∈ childOf e, x.resourceType ∈ releasedTypes → cfg.env.checks.iri x.iri = none
  /-- A product with routes is not deleted. -/
  routes : ∀ product ∈ deletedBy e, ∀ f ∈ s.log, ∀ x ∈ childOf f,
    x.resourceType = "Ingress" → x.product ≠ product
  apart : Apart (s.log ++ [e])

/-- The provisioner may take the event: its query is well formed, and the graph has the declarations
of the product and not its deletion. -/
def MayTake (cfg : NodeConfig) (s : NodeState) (e : EventEnvelope) : Prop :=
  ∀ product ∈ deletedBy e, isPlainLiteral (cfg.env.iris.product product) = true ∧
    ∀ f ∈ s.log.take s.provisioner.taken, ∀ x ∈ childOf f, x.product = product →
      x.resourceType ∈ releasedTypes → isStanding x (s.log.take s.provisioner.taken) = true →
      s.projected ≤ s.provisioner.taken ∧ isStanding x (s.log.take s.projected) = true

/-- The provisioner may make its next step: the calls that release succeed. -/
def MayProvision (cfg : NodeConfig) (s : NodeState) (o : StepOutcome) : Work → Prop
  | .idle => ∀ e ∈ s.log[s.provisioner.taken]?, MayTake cfg s e
  | .cascade _ _ _ false => o.error = none
  | _ => True

/-- The condition on an action. -/
def Orderly (cfg : NodeConfig) (s : NodeState) : NodeAct → Prop
  | .handle h => ∀ e ∈ h.event cfg.api, MayAppend cfg s e
  | .project => True
  | .provision o => MayProvision cfg s o s.provisioner.work

/-! ### Testing the condition -/

instance (s : NodeState) (product : String) : Decidable (Finished s product) :=
  inferInstanceAs (Decidable (_ ∧ _))

instance (log : List EventEnvelope) (product iri : String) :
    Decidable (OutOfReach log product iri) :=
  inferInstanceAs (Decidable (_ ∧ _))

instance (log : List EventEnvelope) : Decidable (Apart log) :=
  inferInstanceAs (Decidable (∀ e ∈ log, ∀ x ∈ childOf e, x.resourceType ∈ releasedTypes →
    ∀ d ∈ log, ∀ product ∈ deletedBy d, product ≠ x.product → OutOfReach log product x.iri))

instance (cfg : NodeConfig) (s : NodeState) (e : EventEnvelope) : Decidable (MayAppend cfg s e) :=
  decidable_of_iff
    ((∀ product ∈ deployedBy e, Finished s product) ∧
      (∀ x ∈ childOf e, x.resourceType ∈ "Ingress" :: releasedTypes →
        isDeleted x.product s.log = false ∧ Finished s x.product) ∧
      (∀ x ∈ childOf e, x.resourceType ∈ releasedTypes → cfg.env.checks.iri x.iri = none) ∧
      (∀ product ∈ deletedBy e, ∀ f ∈ s.log, ∀ x ∈ childOf f,
        x.resourceType = "Ingress" → x.product ≠ product) ∧ Apart (s.log ++ [e]))
    ⟨fun ⟨h₁, h₂, h₃, h₄, h₅⟩ => ⟨h₁, h₂, h₃, h₄, h₅⟩, fun ⟨h₁, h₂, h₃, h₄, h₅⟩ => ⟨h₁, h₂, h₃, h₄, h₅⟩⟩

instance (cfg : NodeConfig) (s : NodeState) (e : EventEnvelope) : Decidable (MayTake cfg s e) :=
  inferInstanceAs (Decidable (∀ product ∈ deletedBy e, _ ∧
    ∀ f ∈ s.log.take s.provisioner.taken, ∀ x ∈ childOf f, x.product = product →
      x.resourceType ∈ releasedTypes → isStanding x (s.log.take s.provisioner.taken) = true →
      s.projected ≤ s.provisioner.taken ∧ isStanding x (s.log.take s.projected) = true))

instance (cfg : NodeConfig) (s : NodeState) (o : StepOutcome) :
    (w : Work) → Decidable (MayProvision cfg s o w)
  | .idle => inferInstanceAs (Decidable (∀ e ∈ s.log[s.provisioner.taken]?, MayTake cfg s e))
  | .cascade _ _ _ false => inferInstanceAs (Decidable (o.error = none))
  | .cascade _ _ _ true | .report _ _ _ | .reschedule _ _ _ _ => isTrue trivial

instance (cfg : NodeConfig) (s : NodeState) : (a : NodeAct) → Decidable (Orderly cfg s a)
  | .handle h => inferInstanceAs (Decidable (∀ e ∈ h.event cfg.api, MayAppend cfg s e))
  | .project => isTrue trivial
  | .provision o => inferInstanceAs (Decidable (MayProvision cfg s o s.provisioner.work))

/-! ## The log -/

section Log

variable {cfg : NodeConfig} {log : List EventEnvelope} {e : EventEnvelope} {product : String}
  {x : Child}

@[simp] theorem isDeleted_concat : isDeleted product (log ++ [e]) =
    if deployedBy e = some product then false
    else if deletedBy e = some product then true
    else isDeleted product log := by
  rw [isDeleted, List.foldl_append]
  rfl

@[simp] theorem isStanding_concat : isStanding x (log ++ [e]) =
    if childOf e = some x then true
    else if deletedBy e = some x.product then false
    else isStanding x log := by
  rw [isStanding, List.foldl_append]
  rfl

theorem exists_deletedBy (h : isDeleted product log = true) :
    ∃ d ∈ log, deletedBy d = some product := by
  induction log using List.reverseRecOn with
  | nil => cases h
  | append_singleton log e ih =>
    rw [isDeleted_concat] at h
    split_ifs at h with hdeploy hdelete
    · exact ⟨e, by simp, hdelete⟩
    · obtain ⟨d, hd, hdel⟩ := ih h
      exact ⟨d, List.mem_append_left _ hd, hdel⟩

theorem exists_childOf (h : isStanding x log = true) : ∃ e ∈ log, childOf e = some x := by
  induction log using List.reverseRecOn with
  | nil => cases h
  | append_singleton log e ih =>
    rw [isStanding_concat] at h
    split_ifs at h with hchild hdelete
    · exact ⟨e, by simp, hchild⟩
    · obtain ⟨f, hf, hchild⟩ := ih h
      exact ⟨f, List.mem_append_left _ hf, hchild⟩

/-! ### One event has one role -/

theorem childOf_eq_some_iff : childOf e = some x ↔
    e.eventType = "ResourceDeclared" ∧ e.product = some x.product ∧
      e.payload.text "resource_type" = some x.resourceType ∧
      e.payload.text "resource_iri" = some x.iri := by
  unfold childOf
  split_ifs with htype
  · simp only [Option.bind_eq_bind, Option.bind_eq_some_iff, Option.pure_def, Option.some.injEq,
      htype, true_and]
    constructor
    · rintro ⟨product, hproduct, resourceType, hresourceType, iri, hiri, rfl⟩
      exact ⟨hproduct, hresourceType, hiri⟩
    · rintro ⟨hproduct, hresourceType, hiri⟩
      exact ⟨_, hproduct, _, hresourceType, _, hiri, rfl⟩
  · simp [htype]

theorem deletedBy_eq_some_iff : deletedBy e = some product ↔
    e.eventType = "ProductDeleted" ∧ e.product = some product := by
  unfold deletedBy
  split_ifs with htype <;> simp [htype]

theorem childOf_eq_none (h : e.eventType ≠ "ResourceDeclared") : childOf e = none := if_neg h

theorem deletedBy_eq_none (h : e.eventType ≠ "ProductDeleted") : deletedBy e = none := if_neg h

theorem deployedBy_eq_none (h : e.eventType ≠ "ProductDeployed") : deployedBy e = none := if_neg h

/-! ### The events of a node -/

/-- The types of the events of declarations. -/
theorem eventType_declared {api : ApiConfig} {decl : ResourceDeclaration} {d : Declared}
    (hd : declared api decl = some d) : d.eventType ∈ ["ProductDeployed", "ResourceDeclared",
      "CapabilityDeclared", "DataDomainDeclared", "DataProductDeclared"] := by
  cases decl with
  | scope s => cases hd
  | m2mPermission m => cases hd
  | product p => cases hd; simp
  | capability c => cases hd; simp
  | dataDomain d => cases hd; simp
  | dataProduct d => cases hd; simp
  | _ => cases hd; simp [resourceDeclared]

/-- A deletion is the event of a request to delete. -/
theorem KnownEvent.eq_deletedEvent (h : KnownEvent cfg e) (htype : e.eventType = "ProductDeleted") :
    ∃ req, e = deletedEvent cfg.api req := by
  cases h with
  | @handled h e he =>
    cases h with
    | declaration req slot decl =>
      obtain ⟨d, hd, rfl⟩ := Option.map_eq_some_iff.mp he
      have hmem := eventType_declared hd
      rw [show d.eventType = "ProductDeleted" from htype] at hmem
      exact absurd hmem (by decide)
    | tag req slot decl entry =>
      cases he
      exact absurd htype (show "TagAdded" ≠ "ProductDeleted" by decide)
    | deletion req =>
      cases he
      exact ⟨req, rfl⟩
  | reported id now event iri error =>
    cases error with
    | none => exact absurd htype (show "ResourceReady" ≠ "ProductDeleted" by decide)
    | some reason => exact absurd htype (show "ResourceFailed" ≠ "ProductDeleted" by decide)
  | removed slot event product iri =>
    exact absurd htype (show "ResourceDeleted" ≠ "ProductDeleted" by decide)

/-- A declaration of a resource comes from a file. -/
theorem KnownEvent.eq_declaredEvent (h : KnownEvent cfg e)
    (htype : e.eventType = "ResourceDeclared") :
    ∃ req slot decl d, declared cfg.api decl = some d ∧ e = declaredEvent cfg.api req slot decl d := by
  cases h with
  | @handled h e he =>
    cases h with
    | declaration req slot decl =>
      obtain ⟨d, hd, rfl⟩ := Option.map_eq_some_iff.mp he
      exact ⟨req, slot, decl, d, hd, rfl⟩
    | tag req slot decl entry =>
      cases he
      exact absurd htype (show "TagAdded" ≠ "ResourceDeclared" by decide)
    | deletion req =>
      cases he
      exact absurd htype (show "ProductDeleted" ≠ "ResourceDeclared" by decide)
  | reported id now event iri error =>
    cases error with
    | none => exact absurd htype (show "ResourceReady" ≠ "ResourceDeclared" by decide)
    | some reason => exact absurd htype (show "ResourceFailed" ≠ "ResourceDeclared" by decide)
  | removed slot event product iri =>
    exact absurd htype (show "ResourceDeleted" ≠ "ResourceDeclared" by decide)

theorem KnownEvent.ne_nodeUnreachable (h : KnownEvent cfg e) : e.eventType ≠ "NodeUnreachable" := by
  intro htype
  cases h with
  | @handled h e he =>
    cases h with
    | declaration req slot decl =>
      obtain ⟨d, hd, rfl⟩ := Option.map_eq_some_iff.mp he
      have hmem := eventType_declared hd
      rw [show d.eventType = "NodeUnreachable" from htype] at hmem
      exact absurd hmem (by decide)
    | tag req slot decl entry =>
      cases he
      exact absurd htype (show "TagAdded" ≠ "NodeUnreachable" by decide)
    | deletion req =>
      cases he
      exact absurd htype (show "ProductDeleted" ≠ "NodeUnreachable" by decide)
  | reported id now event iri error =>
    cases error with
    | none => exact absurd htype (show "ResourceReady" ≠ "NodeUnreachable" by decide)
    | some reason => exact absurd htype (show "ResourceFailed" ≠ "NodeUnreachable" by decide)
  | removed slot event product iri =>
    exact absurd htype (show "ResourceDeleted" ≠ "NodeUnreachable" by decide)

/-- The IRI is built from the product. -/
def BuiltFrom (iris : IriBuilder) (product iri : String) : Prop :=
  ∃ kind name, iri = iris.resource product kind name

/-- What is provisioned was declared under the IRI of its product, and its payload names it. -/
theorem KnownEvent.builtFrom (h : KnownEvent cfg e) (htype : e.eventType = "ResourceDeclared")
    {resourceType iri : String} (hresourceType : e.payload.text "resource_type" = some resourceType)
    (hiri : e.payload.text "resource_iri" = some iri)
    (hmem : resourceType ∈ "Ingress" :: releasedTypes) :
    ∃ product, e.product = some product ∧ e.payload.text "product" = some product ∧
      BuiltFrom cfg.api.iris product iri := by
  obtain ⟨req, slot, decl, d, hd, rfl⟩ := h.eq_declaredEvent htype
  have hother : ∀ t, d.payload.text "resource_type" = some t →
      t ∉ "Ingress" :: releasedTypes → False := by
    intro t ht hnot
    obtain rfl := Option.some.inj (hresourceType.symm.trans ht)
    exact hnot hmem
  cases decl with
  | volume v =>
    cases hd
    exact ⟨_, rfl, rfl, _, _, (Option.some.inj hiri).symm⟩
  | container c =>
    cases hd
    exact ⟨_, rfl, rfl, _, _, (Option.some.inj hiri).symm⟩
  | binary b =>
    cases hd
    exact ⟨_, rfl, rfl, _, _, (Option.some.inj hiri).symm⟩
  | ingress i =>
    cases hd
    exact ⟨_, rfl, rfl, _, _, (Option.some.inj hiri).symm⟩
  | scope s => cases hd
  | m2mPermission m => cases hd
  | product p =>
    cases hd
    exact absurd htype (show "ProductDeployed" ≠ "ResourceDeclared" by decide)
  | capability c =>
    cases hd
    exact absurd htype (show "CapabilityDeclared" ≠ "ResourceDeclared" by decide)
  | dataDomain d =>
    cases hd
    exact absurd htype (show "DataDomainDeclared" ≠ "ResourceDeclared" by decide)
  | dataProduct d =>
    cases hd
    exact absurd htype (show "DataProductDeclared" ≠ "ResourceDeclared" by decide)
  | _ =>
    cases hd
    exact (hother _ rfl (by decide)).elim

end Log

/-! ## The backends -/

/-- There is something that the call would release. -/
def Backends.Holds (b : Backends) : BackendCall → Prop
  | .stop iri => iri ∈ Assoc.keys b.workloads
  | .deleteVolume iri => iri ∈ b.volumes
  | _ => False

section Backends

variable {b : Backends} {c c' : BackendCall} {iri resourceType product : String}

theorem childCall_eq_some (h : childCall iri resourceType = some c) :
    resourceType ∈ releasedTypes ∧
      ((resourceType ≠ "Volume" ∧ c = .stop ⟨iri⟩) ∨
        (resourceType = "Volume" ∧ c = .deleteVolume ⟨iri⟩)) := by
  unfold childCall at h
  split_ifs at h with hworkload hvolume
  · rcases hworkload with rfl | rfl
    · exact ⟨by decide, Or.inl ⟨by decide, (Option.some.inj h).symm⟩⟩
    · exact ⟨by decide, Or.inl ⟨by decide, (Option.some.inj h).symm⟩⟩
  · subst hvolume
    exact ⟨by decide, Or.inr ⟨rfl, (Option.some.inj h).symm⟩⟩

/-- A call that releases leaves the rest. -/
theorem holds_call_of_childCall (h : childCall iri resourceType = some c)
    (hholds : (b.call c).Holds c') : b.Holds c' ∧ c' ≠ c := by
  rcases (childCall_eq_some h).2 with ⟨-, rfl⟩ | ⟨-, rfl⟩
  · cases c' with
    | stop iri' =>
      obtain ⟨w, hw, rfl⟩ := List.mem_map.mp hholds
      obtain ⟨hmem, hne⟩ := List.mem_filter.mp hw
      refine ⟨List.mem_map_of_mem hmem, fun heq => ?_⟩
      exact of_decide_eq_true hne (BackendCall.stop.inj heq)
    | deleteVolume iri' => exact ⟨hholds, by simp⟩
    | _ => exact hholds.elim
  · cases c' with
    | stop iri' => exact ⟨hholds, by simp⟩
    | deleteVolume iri' =>
      obtain ⟨hmem, hne⟩ := List.mem_filter.mp hholds
      exact ⟨hmem, fun heq => of_decide_eq_true hne (BackendCall.deleteVolume.inj heq)⟩
    | _ => exact hholds.elim

theorem routeProducts_call_of_childCall (h : childCall iri resourceType = some c) :
    (b.call c).routeProducts = b.routeProducts := by
  rcases (childCall_eq_some h).2 with ⟨-, rfl⟩ | ⟨-, rfl⟩ <;> rfl

theorem holds_allocateVolume {iri : ResourceIri} {sizeGb : ℕ} {intent : StorageIntent}
    {volumeType : VolumeType} (h : (b.call (.allocateVolume iri sizeGb intent volumeType)).Holds c) :
    b.Holds c ∨ c = .deleteVolume iri := by
  cases c with
  | deleteVolume iri' =>
    rcases List.mem_insert_iff.mp h with rfl | hmem
    · exact Or.inr rfl
    · exact Or.inl hmem
  | _ => exact Or.inl h

theorem holds_schedule {iri : ResourceIri} {spec : WorkloadSpec}
    (h : (b.call (.schedule iri spec)).Holds c) : b.Holds c ∨ c = .stop iri := by
  cases c with
  | stop iri' =>
    obtain ⟨w, hw, rfl⟩ := List.mem_map.mp h
    rcases Assoc.mem_set.mp hw with rfl | ⟨hmem, -⟩
    · exact Or.inr rfl
    · exact Or.inl (List.mem_map_of_mem hmem)
  | _ => exact Or.inl h

/-- What the provisioning of an event adds to the workloads and volumes. -/
theorem holds_provisionCalls {cfg : ProvisionConfig} {e : EventEnvelope}
    (h : ((provisionCalls cfg e).foldl Backends.call b).Holds c) :
    b.Holds c ∨ ∃ resourceType iri, e.payload.text "resource_type" = some resourceType ∧
      e.payload.text "resource_iri" = some iri ∧ childCall iri resourceType = some c := by
  unfold provisionCalls at h
  split at h
  · next resourceType iri htype hiri =>
    unfold provisionByType at h
    split at h
    · rw [provisionVolume, List.foldl_cons, List.foldl_nil] at h
      rcases holds_allocateVolume h with hold | rfl
      · exact Or.inl hold
      · exact Or.inr ⟨_, iri, htype, hiri, rfl⟩
    · rcases holds_schedule h with hold | rfl
      · exact Or.inl hold
      · exact Or.inr ⟨_, iri, htype, hiri, rfl⟩
    · rcases holds_schedule h with hold | rfl
      · exact Or.inl hold
      · exact Or.inr ⟨_, iri, htype, hiri, rfl⟩
    · exact Or.inl h
    · left
      unfold provisionIngress at h
      dsimp only at h
      split_ifs at h <;> exact h
    · exact Or.inl h
  · exact Or.inl h

/-! ### Routes -/

theorem mem_routeProducts_insertRoute {route : IngressRoute}
    (h : product ∈ (b.call (.insertRoute iri route)).routeProducts) :
    product ∈ b.routeProducts ∨ product = route.product := by
  simp only [Backends.routeProducts, Backends.call, List.mem_append, List.mem_map] at h ⊢
  rcases h with (⟨e, he, rfl⟩ | hexternal) | hinternal
  · rcases Assoc.mem_set.mp he with rfl | ⟨hmem, -⟩
    · exact Or.inr rfl
    · exact Or.inl (Or.inl (Or.inl ⟨e, hmem, rfl⟩))
  · exact Or.inl (Or.inl (Or.inr hexternal))
  · exact Or.inl (Or.inr hinternal)

theorem mem_without {ingressIri : ResourceIri} {routes : List RouteEntry} {route : RouteEntry}
    (h : route ∈ IngressRouter.without ingressIri routes) : route ∈ routes :=
  (List.mem_filter.mp h).1

theorem mem_routeProducts_upsertRoute {host : String} {entry : RouteEntry}
    (h : product ∈ (b.call (.upsertRoute host entry)).routeProducts) :
    product ∈ b.routeProducts ∨ product = entry.product := by
  simp only [Backends.routeProducts, Backends.call, List.mem_append, List.mem_map,
    List.mem_flatMap] at h ⊢
  unfold IngressRouter.upsertRoute at h
  rcases h with (htable | ⟨e, he, route, hroute, rfl⟩) | ⟨route, hroute, rfl⟩
  · exact Or.inl (Or.inl (Or.inl htable))
  · split_ifs at he
    · exact Or.inl (Or.inl (Or.inr ⟨e, he, route, hroute, rfl⟩))
    · rcases Assoc.mem_set.mp he with rfl | ⟨hmem, -⟩
      · rcases List.mem_append.mp hroute with hold | hnew
        · cases hget : Assoc.get b.router.external host with
          | none =>
            rw [hget] at hold
            exact absurd (mem_without hold) List.not_mem_nil
          | some routes =>
            rw [hget] at hold
            exact Or.inl (Or.inl (Or.inr ⟨_, Assoc.mem_of_get hget, route, mem_without hold, rfl⟩))
        · exact Or.inr (congrArg RouteEntry.product (List.mem_singleton.mp hnew))
      · exact Or.inl (Or.inl (Or.inr ⟨e, hmem, route, hroute, rfl⟩))
  · split_ifs at hroute
    · rcases List.mem_append.mp hroute with hold | hnew
      · exact Or.inl (Or.inr ⟨route, mem_without hold, rfl⟩)
      · exact Or.inr (congrArg RouteEntry.product (List.mem_singleton.mp hnew))
    · exact Or.inl (Or.inr ⟨route, hroute, rfl⟩)

/-- What the provisioning of an event adds to the routes. -/
theorem routeProducts_provisionCalls {cfg : ProvisionConfig} {e : EventEnvelope}
    (h : product ∈ ((provisionCalls cfg e).foldl Backends.call b).routeProducts) :
    product ∈ b.routeProducts ∨ e.payload.text "resource_type" = some "Ingress" ∧
      (∃ iri, e.payload.text "resource_iri" = some iri) ∧
      product = (e.payload.text "product").getD "unknown" := by
  unfold provisionCalls at h
  split at h
  · next resourceType iri htype hiri =>
    unfold provisionByType at h
    split at h
    · exact Or.inl h
    · exact Or.inl h
    · exact Or.inl h
    · exact Or.inl h
    · unfold provisionIngress at h
      have hnew : product = (e.payload.text "product").getD "unknown" →
          product ∈ b.routeProducts ∨ e.payload.text "resource_type" = some "Ingress" ∧
            (∃ iri, e.payload.text "resource_iri" = some iri) ∧
            product = (e.payload.text "product").getD "unknown" :=
        fun hproduct => Or.inr ⟨htype, ⟨iri, hiri⟩, hproduct⟩
      dsimp only at h
      rw [List.foldl_append] at h
      by_cases hrouter : cfg.hasRouter = true
      · rw [if_pos hrouter] at h
        rcases mem_routeProducts_upsertRoute h with hinsert | hproduct
        · split_ifs at hinsert
          · exact (mem_routeProducts_insertRoute hinsert).elim Or.inl hnew
          · exact Or.inl hinsert
        · exact hnew hproduct
      · rw [if_neg hrouter] at h
        split_ifs at h
        · exact (mem_routeProducts_insertRoute h).elim Or.inl hnew
        · exact Or.inl h
    · exact Or.inl h
  · exact Or.inl h

end Backends

end Picloud
