import Picloud.Provision.AsDeclared

/-!
# The provisioner and the projection loop

Reference: `Provisioner::start`, `cascade_delete_product` and
`reschedule_workloads_from_failed_node` of `picloud-http/src/provisioner.rs`, and the projection loop
of `main.rs`.

The two are subscribers of one event log, each with its own position. The projection of an event is
one step. The provisioner goes on in single steps: taking an event, with its query of the graph or its
provisioning, every later call to a backend and every append. A call to a backend that fails changes
nothing, and an append that is refused adds nothing.
-/

namespace Picloud

open Lib

/-! ## Backends -/

/-- What the backends hold: the scheduled workloads, the allocated volumes, the legacy routing table
and the router. -/
structure Backends where
  workloads : Assoc ResourceIri WorkloadSpec
  volumes : List ResourceIri
  table : Assoc String IngressRoute
  router : IngressRouter

namespace Backends

/-- Nothing is held. -/
def empty : Backends := ⟨[], [], [], IngressRouter.new⟩

/-- A call that succeeds. -/
def call (b : Backends) : BackendCall → Backends
  | .allocateVolume iri _ _ _ => { b with volumes := b.volumes.insert iri }
  | .deleteVolume iri => { b with volumes := b.volumes.filter (· ≠ iri) }
  | .schedule iri spec => { b with workloads := Assoc.set b.workloads iri spec }
  | .stop iri => { b with workloads := Assoc.erase b.workloads iri }
  | .storeSecret _ _ _ => b
  | .insertRoute iri route => { b with table := Assoc.set b.table iri route }
  | .upsertRoute host entry => { b with router := b.router.upsertRoute host entry }

end Backends

/-! ## Queries -/

/-- What the subscribers and the handlers are configured with. -/
structure NodeConfig where
  env : ProjectorEnv
  api : ApiConfig
  isUrl : String → Bool
  /-- What a query answers that embeds a text which ends its literal, or its IRI. -/
  injected : Store → String → List (String × String)
  injectedWorkloads : Store → String → List (String × String × Option String)
  /-- All of them are built with the domain of the cluster. -/
  sameDomain : api.iris = env.iris

/-- The text stands for itself between quotation marks. -/
def isPlainLiteral (text : String) : Bool :=
  text.toList.all fun c => c ∉ ['"', '\\', '\n', '\r']

/-- The text stands for itself between angle brackets. -/
def isPlainIri (text : String) : Bool :=
  text.toList.all fun c => c ∉ ['<', '>', '"', '\x7b', '\x7d', '|', '^', '\x60', '\\'] && ' ' < c

/-- The resources whose IRI starts with the IRI of a product, with their types. -/
def childRows (env : ProjectorEnv) (graph : Store) (productIri : String) : List (String × String) :=
  (env.scan (graph.quadsForPattern
    ⟨none, some ⟨rdfType⟩, some (picloudTerm "Resource"), some .default⟩)).flatMap fun q =>
      match q.subject with
      | .named n =>
        if (productIri ++ "/").toList.isPrefixOf n.value.toList then
          (env.scan (graph.quadsForPattern
            (valuesOf n.value (pc "resourceType") (some .default)))).map fun q' =>
              (n.value, termText q'.object)
        else []
      | _ => []

/-- The query of `cascade_delete_product`. -/
def childQuery (cfg : NodeConfig) (graph : Store) (productIri : String) : List (String × String) :=
  if isPlainLiteral productIri then childRows cfg.env graph productIri
  else cfg.injected graph productIri

/-- The workloads on a node, with their types and, as far as there are any, their products. -/
def workloadRows (env : ProjectorEnv) (graph : Store) (nodeIri : String) :
    List (String × String × Option String) :=
  (env.scan (graph.quadsForPattern
    ⟨none, some ⟨pc "scheduledOn"⟩, some (node nodeIri), some .default⟩)).flatMap fun q =>
      (env.scan (graph.quadsForPattern
        ⟨some q.subject, some ⟨pc "resourceType"⟩, none, some .default⟩)).flatMap fun t =>
          match env.scan (graph.quadsForPattern
            ⟨some q.subject, some ⟨pc "product"⟩, none, some .default⟩) with
          | [] => [(q.subject.text, termText t.object, none)]
          | products => products.map fun p =>
            (q.subject.text, termText t.object, some (termText p.object))

/-- The query of `reschedule_workloads_from_failed_node`. -/
def workloadQuery (cfg : NodeConfig) (graph : Store) (nodeIri : String) :
    List (String × String × Option String) :=
  if isPlainIri nodeIri then workloadRows cfg.env graph nodeIri
  else cfg.injectedWorkloads graph nodeIri

/-! ## The provisioner -/

/-- What the provisioner is in the middle of. -/
inductive Work where
  | idle
  /-- The result of provisioning a resource has to be appended. -/
  | report (event : EventEnvelope) (iri : String) (error : Option String)
  /-- The children of a deleted product that are left; the flag says that the call for the first of
  them has been made. -/
  | cascade (event : EventEnvelope) (product : String) (rows : List (String × String)) (called : Bool)
  /-- The workloads of a failed node that are left; a correlation identifier says that the first of
  them has been announced. -/
  | reschedule (nodeIri nodeName : String) (rows : List (String × String × Option String))
      (announced : Option Uuid)
deriving DecidableEq

/-- `Provisioner`: the number of events taken, and the backends. -/
structure Provisioner where
  taken : ℕ
  work : Work
  backends : Backends
  /-- The resources that were stopped or removed, with the length of the log at that time. -/
  released : List (ResourceIri × ℕ)

/-- What the outside gives to one step: to an append, a correlation identifier, and the error of a
call. -/
structure StepOutcome where
  slot : Slot
  correlationId : Uuid
  error : Option String

/-- The call for a child of a deleted product; other types need no cleanup. -/
def childCall (iri resourceType : String) : Option BackendCall :=
  if resourceType = "Container" ∨ resourceType = "Binary" then some (.stop ⟨iri⟩)
  else if resourceType = "Volume" then some (.deleteVolume ⟨iri⟩)
  else none

/-- The event for a child of a deleted product. -/
def resourceDeletedEvent (iris : IriBuilder) (slot : Slot) (event : EventEnvelope)
    (product iri : String) : EventEnvelope :=
  EventEnvelope.new slot.id slot.now ⟨iris.eventSchema "ResourceDeleted" 1⟩ "ResourceDeleted" ⟨iri⟩
    (some product) event.correlationId (.object [("resource_iri", .string iri)])

/-- The event that announces a workload. -/
def workloadRescheduledEvent (iris : IriBuilder) (slot : Slot) (correlationId : Uuid)
    (nodeIri nodeName iri : String) (product : Option String) : EventEnvelope :=
  EventEnvelope.new slot.id slot.now ⟨iris.eventSchema "WorkloadRescheduled" 1⟩
    "WorkloadRescheduled" ⟨iri⟩ product correlationId
    (.object [("workload_iri", .string iri), ("from_node_iri", .string nodeIri),
      ("reason", .string ("Node " ++ nodeName ++ " became unreachable"))])

/-- The event that declares a workload again. -/
def redeclaredEvent (iris : IriBuilder) (slot : Slot) (correlationId : Uuid)
    (iri resourceType : String) (product : Option String) : EventEnvelope :=
  EventEnvelope.new slot.id slot.now ⟨iris.eventSchema "ResourceDeclared" 1⟩ "ResourceDeclared"
    ⟨iri⟩ product correlationId
    (.object [("resource_iri", .string iri), ("resource_type", .string resourceType)])

/-- An append that the log may refuse. -/
def Slot.appended (slot : Slot) (event : EventEnvelope) : List EventEnvelope :=
  match slot.refused with
  | none => [event]
  | some _ => []

/-- Taking an event: what is to be done about it, and what the backends hold after its
provisioning. -/
def takeEvent (cfg : NodeConfig) (graph : Store) (event : EventEnvelope) (error : Option String)
    (b : Backends) : Work × Backends :=
  if event.eventType = "ResourceDeclared" then
    match event.payload.text "resource_type", event.payload.text "resource_iri" with
    | some _, some iri =>
      (.report event iri error, match error with
        | none => (provisionCalls (serverProvisioner cfg.env.iris cfg.isUrl) event).foldl
            Backends.call b
        | some _ => b)
    | _, _ => (.idle, b)
  else if event.eventType = "ProductDeleted" then
    match event.payload.text "product_iri", event.product with
    | some productIri, some product =>
      (.cascade event product (childQuery cfg graph productIri) false, b)
    | _, _ => (.idle, b)
  else if event.eventType = "NodeUnreachable" then
    match event.payload.text "node_iri" with
    | some nodeIri =>
      (.reschedule nodeIri ((event.payload.text "node_name").getD "unknown")
        (workloadQuery cfg graph nodeIri) none, b)
    | none => (.idle, b)
  else (.idle, b)

/-- One step of the provisioner, with the events that it appends. -/
def Provisioner.next (cfg : NodeConfig) (log : List EventEnvelope) (graph : Store) (p : Provisioner)
    (o : StepOutcome) : Option (Provisioner × List EventEnvelope) :=
  let iris := cfg.env.iris
  match p.work with
  | .idle => (log[p.taken]?).map fun event =>
    let (work, backends) := takeEvent cfg graph event o.error p.backends
    ({ p with taken := p.taken + 1, work := work, backends := backends }, [])
  | .report event iri error =>
    some ({ p with work := .idle }, o.slot.appended
      (provisionResult (serverProvisioner iris cfg.isUrl) o.slot.id o.slot.now event iri error))
  | .cascade _ _ [] _ => some ({ p with work := .idle }, [])
  | .cascade event product ((iri, resourceType) :: rows) false =>
    let next := { p with work := .cascade event product ((iri, resourceType) :: rows) true }
    match childCall iri resourceType, o.error with
    | some c, none => some ({ next with
        backends := p.backends.call c, released := (⟨iri⟩, log.length) :: p.released }, [])
    | _, _ => some (next, [])
  | .cascade event product ((iri, _) :: rows) true =>
    some ({ p with work := .cascade event product rows false },
      o.slot.appended (resourceDeletedEvent iris o.slot event product iri))
  | .reschedule _ _ [] _ => some ({ p with work := .idle }, [])
  | .reschedule nodeIri nodeName ((iri, resourceType, product) :: rows) none =>
    let rest := (iri, resourceType, product) :: rows
    some ({ p with work := .reschedule nodeIri nodeName rest (some o.correlationId) },
      o.slot.appended
        (workloadRescheduledEvent iris o.slot o.correlationId nodeIri nodeName iri product))
  | .reschedule nodeIri nodeName ((iri, resourceType, product) :: rows) (some correlationId) =>
    some ({ p with work := .reschedule nodeIri nodeName rows none },
      o.slot.appended (redeclaredEvent iris o.slot correlationId iri resourceType product))

/-! ## A node -/

/-- One node: the log, the graph with the number of events projected into it, and the provisioner. -/
structure NodeState where
  log : List EventEnvelope
  graph : Store
  projected : ℕ
  provisioner : Provisioner

/-- What a handler appends. -/
inductive HandlerEvent where
  | declaration (req : ApplyRequest) (slot : Slot) (decl : ResourceDeclaration)
  | tag (req : ApplyRequest) (slot : Slot) (decl : ResourceDeclaration) (entry : String × String)
  | deletion (req : DeleteRequest)

/-- The event itself; some declarations have none. -/
def HandlerEvent.event (api : ApiConfig) : HandlerEvent → Option EventEnvelope
  | .declaration req slot decl => (declared api decl).map (declaredEvent api req slot decl)
  | .tag req slot decl entry => some (tagEvent api req slot decl entry)
  | .deletion req => some (deletedEvent api req)

/-- The actions: a handler appends an event, the projection loop projects the next one, or the
provisioner makes a step. -/
inductive NodeAct where
  | handle (h : HandlerEvent)
  | project
  | provision (o : StepOutcome)

/-- One action. -/
def nodeNext (cfg : NodeConfig) (s : NodeState) : NodeAct → Option NodeState
  | .handle h => (h.event cfg.api).map fun event => { s with log := s.log ++ [event] }
  | .project => (s.log[s.projected]?).map fun event =>
    { s with graph := projected cfg.env s.graph event, projected := s.projected + 1 }
  | .provision o => (s.provisioner.next cfg s.log s.graph o).map fun (p, events) =>
    { s with log := s.log ++ events, provisioner := p }

/-- A node before any event. -/
def nodeStart : NodeState := ⟨[], [], 0, ⟨0, .idle, Backends.empty, []⟩⟩

end Picloud
