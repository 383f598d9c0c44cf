import Picloud.Cluster.Peers
import Picloud.Provision.ReleaseRuns

/-!
# Rescheduling the workloads of a failed node

Reference: `reschedule_workloads_from_failed_node` of `picloud-http/src/provisioner.rs`, the node
failure watcher and the start of the provisioner of `main.rs`, and `WriteThroughEventLog::append` of
`picloud-events/src/implementation.rs`, which both append to.

An event is committed by Raft and applied to the log of every survivor in turn, or, if Raft refuses it,
falls back to the log of the survivor alone. Every survivor announces the failed node, and every survivor
answers every announcement in its log by declaring the workloads of the node again. How often a workload
is declared depends on whose appends succeed on either route: it is once if these are the appends of one
survivor. The new declaration has the IRI and the type of the workload and nothing else, so that it is
provisioned with the defaults.
-/

namespace Picloud

open Lib

/-! ## The survivors -/

/-- A surviving node: whether its watcher has the removal of the failed node still to announce, its own
log with the number of committed events applied to it, its graph with the number of events projected into
it, and its provisioner. -/
structure Survivor where
  watching : Bool
  log : List EventEnvelope
  applied : ℕ
  graph : Store
  projected : ℕ
  provisioner : Provisioner

/-- What Raft has committed, the survivors, and the events that have been appended, by any of them and on
any route. -/
structure Survivors where
  committed : List EventEnvelope
  nodes : List Survivor
  appended : List EventEnvelope

/-- The route of an append that does not fail: Raft commits the event, or the node's own log takes it. -/
inductive AppendRoute where
  | raft
  | fallback
deriving DecidableEq

/-- The actions of a survivor: its watcher announces the failed node, a committed event is applied to its
log, its projection loop projects the next event, or its provisioner makes a step. -/
inductive SurvivorAct where
  | watch (i : ℕ) (slot : Slot) (correlationId : Uuid) (route : AppendRoute)
  | apply (i : ℕ)
  | project (i : ℕ)
  | provision (i : ℕ) (o : StepOutcome) (route : AppendRoute)

/-- The event of the watcher. -/
def nodeUnreachableEvent (iris : IriBuilder) (slot : Slot) (correlationId : Uuid) (peer : PeerInfo) :
    EventEnvelope :=
  EventEnvelope.new slot.id slot.now ⟨iris.eventSchema "NodeUnreachable" 1⟩ "NodeUnreachable"
    ⟨iris.node peer.nodeName⟩ none correlationId
    (.object [("node_id", .string peer.nodeId.display),
      ("node_iri", .string (iris.node peer.nodeName)), ("node_name", .string peer.nodeName),
      ("last_address", .string peer.address)])

/-- `WriteThroughEventLog::append` of the events of one step, which leaves the survivor as given; what
both routes refuse is not among the events. -/
def Survivors.writeThrough (s : Survivors) (i : ℕ) (n : Survivor) (events : List EventEnvelope) :
    AppendRoute → Survivors
  | .raft => ⟨s.committed ++ events, s.nodes.set i n, s.appended ++ events⟩
  | .fallback => ⟨s.committed, s.nodes.set i { n with log := n.log ++ events }, s.appended ++ events⟩

/-- One action. -/
def survivorNext (cfg : NodeConfig) (peer : PeerInfo) (s : Survivors) :
    SurvivorAct → Option Survivors
  | .watch i slot correlationId route => (s.nodes[i]?).bind fun n =>
    if n.watching then some (s.writeThrough i { n with watching := false }
      (slot.appended (nodeUnreachableEvent cfg.env.iris slot correlationId peer)) route)
    else none
  | .apply i => (s.nodes[i]?).bind fun n => (s.committed[n.applied]?).map fun e =>
    let n := { n with log := n.log ++ [e], applied := n.applied + 1 }
    { s with nodes := s.nodes.set i n }
  | .project i => (s.nodes[i]?).bind fun n => (n.log[n.projected]?).map fun e =>
    let n := { n with graph := projected cfg.env n.graph e, projected := n.projected + 1 }
    { s with nodes := s.nodes.set i n }
  | .provision i o route => (s.nodes[i]?).bind fun n =>
    (n.provisioner.next cfg n.log n.graph o).map fun (p, events) =>
      s.writeThrough i { n with provisioner := p } events route

/-! ## What is claimed -/

/-- The workloads that a log has recorded on the failed node. -/
def recordedRows (cfg : NodeConfig) (peer : PeerInfo) (history : List EventEnvelope) :
    List (String × String × Option String) :=
  workloadQuery cfg (history.foldl (projected cfg.env) []) (cfg.env.iris.node peer.nodeName)

/-- The event is of the type and about the workload. -/
def isAbout (eventType workload : String) (e : EventEnvelope) : Bool :=
  e.eventType = eventType && e.source.value = workload

/-- The spec of a declared workload, with its IRI and its type. -/
def specOf (api : ApiConfig) : ResourceDeclaration → Option (String × String × WorkloadSpec)
  | .container c => some (api.iris.resource c.product "containers" c.name, "Container",
      .container (c.toSpec api.formats))
  | .binary b => some (api.iris.resource b.product "binaries" b.name, "Binary",
      .binary (b.toSpec api.formats))
  | _ => none

/-- The last declaration that the log has of the workload may have been this one. -/
def LastDeclared (cfg : NodeConfig) (history : List EventEnvelope) (workload : String)
    (decl : ResourceDeclaration) : Prop :=
  ∃ before req slot d after, declared cfg.api decl = some d ∧ d.iri = workload ∧
    history = before ++ declaredEvent cfg.api req slot decl d :: after ∧
    ∀ e ∈ after, isAbout "ResourceDeclared" workload e = false

/-- The declaration that was applied for the workload, with its last event in the log. -/
def Original (cfg : NodeConfig) (history : List EventEnvelope)
    (applied : String → Option ResourceDeclaration) (workload : String)
    (decl : ResourceDeclaration) : Prop :=
  applied workload = some decl ∧ LastDeclared cfg history workload decl

/-- All announcements are made, and all events are applied, taken and projected. -/
def Survivors.Settled (s : Survivors) : Prop :=
  ∀ n ∈ s.nodes, n.watching = false ∧ n.applied = s.committed.length ∧ n.projected = n.log.length ∧
    n.provisioner.taken = n.log.length ∧ n.provisioner.work = .idle

/-- What is claimed, of the events that were appended after a history: every workload of the failed
node is announced and declared again once, and provisioned as it was declared. -/
structure RescheduledOnce (cfg : NodeConfig) (peer : PeerInfo) (history : List EventEnvelope)
    (applied : String → Option ResourceDeclaration) (s : Survivors) : Prop where
  once : s.Settled → ∀ row ∈ recordedRows cfg peer history,
    s.appended.countP (isAbout "WorkloadRescheduled" row.1) = 1 ∧
      s.appended.countP (isAbout "ResourceDeclared" row.1) = 1
  unchanged : ∀ e ∈ s.appended, e.eventType = "ResourceDeclared" →
    ∀ decl iri resourceType spec, Original cfg history applied e.source.value decl →
      specOf cfg.api decl = some (iri, resourceType, spec) →
      provisionCalls (serverProvisioner cfg.env.iris cfg.isUrl) e = [.schedule ⟨iri⟩ spec]

/-! ## When it holds -/

/-- The declaration has only the values that are given to a workload by default. -/
def OnlyDefaults (api : ApiConfig) : ResourceDeclaration → Prop
  | .container c =>
    c.image = "unknown" ∧ c.identity = "default" ∧ c.cpu.bind (parseCpuMillis api.formats) = none ∧
      c.memory.bind parseMemoryMb = none ∧ c.mounts = [] ∧ c.env = [] ∧ c.ports = []
  | .binary b =>
    b.executable = "unknown" ∧ b.args = [] ∧ b.identity = "default" ∧
      b.cpu.bind (parseCpuMillis api.formats) = none ∧ b.memory.bind parseMemoryMb = none ∧
      b.mounts = [] ∧ b.env = []
  | _ => True

/-- The workloads of the failed node have one type and one product each, and their declarations have
that type and only default values. -/
structure Redeclarable (cfg : NodeConfig) (peer : PeerInfo) (history : List EventEnvelope)
    (applied : String → Option ResourceDeclaration) : Prop where
  nodup : ((recordedRows cfg peer history).map Prod.fst).Nodup
  defaults : ∀ row ∈ recordedRows cfg peer history, ∀ decl iri resourceType spec,
    Original cfg history applied row.1 decl → specOf cfg.api decl = some (iri, resourceType, spec) →
    row.2.1 = resourceType ∧ OnlyDefaults cfg.api decl

/-- The condition on an action: of the announcements and new declarations those of one survivor succeed,
on either route, and those of the others fail on both; and when this survivor asks its graph for the
workloads of the failed node, the graph has those that the log had recorded. -/
def Led (cfg : NodeConfig) (peer : PeerInfo) (history : List EventEnvelope) (leader : ℕ)
    (s : Survivors) : SurvivorAct → Prop
  | .watch i slot _ _ => slot.refused = none ↔ i = leader
  | .apply _ | .project _ => True
  | .provision i o _ => ∀ n ∈ s.nodes[i]?,
    (n.provisioner.work.reschedules = true → (o.slot.refused = none ↔ i = leader)) ∧
      (i = leader → n.provisioner.work = .idle → ∀ e ∈ n.log[n.provisioner.taken]?,
        e.eventType = "NodeUnreachable" →
          (workloadQuery cfg n.graph (cfg.env.iris.node peer.nodeName)).Perm
            (recordedRows cfg peer history))

/-- The log that a survivor will have when the committed events are applied. -/
def Survivors.ahead (s : Survivors) (n : Survivor) : List EventEnvelope :=
  n.log ++ s.committed.drop n.applied

/-- One node has been removed: the watchers have it to announce, nobody is rescheduling, earlier failures
have been answered, and nothing has been appended since. -/
structure JustRemoved (s : Survivors) : Prop where
  watching : ∀ n ∈ s.nodes, n.watching = true
  applied : ∀ n ∈ s.nodes, n.applied ≤ s.committed.length
  taken : ∀ n ∈ s.nodes, n.provisioner.taken ≤ n.log.length
  work : ∀ n ∈ s.nodes, n.provisioner.work.reschedules = false
  answered : ∀ n ∈ s.nodes, ∀ e ∈ (s.ahead n).drop n.provisioner.taken, e.eventType ≠ "NodeUnreachable"
  appended : s.appended = []

/-! ## The provisioner -/

/-- The event neither announces a failure nor belongs to a rescheduling. -/
def Bystander (e : EventEnvelope) : Prop :=
  e.eventType ≠ "NodeUnreachable" ∧ e.eventType ≠ "WorkloadRescheduled" ∧
    e.eventType ≠ "ResourceDeclared"

section Provisioner

variable {cfg : NodeConfig} {log : List EventEnvelope} {graph : Store} {p p' : Provisioner}
  {o : StepOutcome} {events : List EventEnvelope} {e : EventEnvelope}

theorem bystander_provisionResult (pcfg : ProvisionConfig) (id : Uuid) (now : ℤ)
    (event : EventEnvelope) (iri : String) (error : Option String) :
    Bystander (provisionResult pcfg id now event iri error) := by
  cases error with
  | none => exact ⟨show "ResourceReady" ≠ _ by decide, show "ResourceReady" ≠ _ by decide,
      show "ResourceReady" ≠ _ by decide⟩
  | some reason => exact ⟨show "ResourceFailed" ≠ _ by decide, show "ResourceFailed" ≠ _ by decide,
      show "ResourceFailed" ≠ _ by decide⟩

theorem bystander_resourceDeletedEvent (iris : IriBuilder) (slot : Slot) (event : EventEnvelope)
    (product iri : String) : Bystander (resourceDeletedEvent iris slot event product iri) :=
  ⟨show "ResourceDeleted" ≠ _ by decide, show "ResourceDeleted" ≠ _ by decide,
    show "ResourceDeleted" ≠ _ by decide⟩

theorem mem_slot_appended {slot : Slot} {f : EventEnvelope} (h : f ∈ slot.appended e) : f = e := by
  unfold Slot.appended at h
  split at h
  · exact List.mem_singleton.mp h
  · cases h

/-- What the provisioner can do, as far as rescheduling goes. -/
theorem Provisioner.next_cases (h : p.next cfg log graph o = some (p', events)) :
    (∃ e, p.work = .idle ∧ log[p.taken]? = some e ∧ p'.taken = p.taken + 1 ∧
      p'.work = (takeEvent cfg graph e o.error p.backends).1 ∧ events = []) ∨
    (p.work ≠ .idle ∧ p.work.reschedules = false ∧ p'.taken = p.taken ∧
      p'.work.reschedules = false ∧ ∀ e ∈ events, Bystander e) ∨
    (∃ nodeIri nodeName announced, p.work = .reschedule nodeIri nodeName [] announced ∧
      p'.taken = p.taken ∧ p'.work = .idle ∧ events = []) ∨
    (∃ nodeIri nodeName row rows, p.work = .reschedule nodeIri nodeName (row :: rows) none ∧
      p'.taken = p.taken ∧
      p'.work = .reschedule nodeIri nodeName (row :: rows) (some o.correlationId) ∧
      events = o.slot.appended (workloadRescheduledEvent cfg.env.iris o.slot o.correlationId nodeIri
        nodeName row.1 row.2.2)) ∨
    (∃ nodeIri nodeName row rows correlationId,
      p.work = .reschedule nodeIri nodeName (row :: rows) (some correlationId) ∧
      p'.taken = p.taken ∧ p'.work = .reschedule nodeIri nodeName rows none ∧
      events = o.slot.appended
        (redeclaredEvent cfg.env.iris o.slot correlationId row.1 row.2.1 row.2.2)) := by
  unfold Provisioner.next at h
  dsimp only at h
  split at h
  case h_1 hidle =>
    obtain ⟨e, he, heq⟩ := Option.map_eq_some_iff.mp h
    cases heq
    exact Or.inl ⟨e, hidle, he, rfl, rfl, rfl⟩
  case h_2 event iri error hwork =>
    cases h
    refine Or.inr (Or.inl ⟨by simp [hwork], by rw [hwork]; rfl, rfl, rfl, fun e he => ?_⟩)
    rw [mem_slot_appended he]
    exact bystander_provisionResult _ _ _ event iri error
  case h_3 hwork =>
    cases h
    exact Or.inr (Or.inl ⟨by simp [hwork], by rw [hwork]; rfl, rfl, rfl, by simp⟩)
  case h_4 event product iri resourceType rows hwork =>
    split at h
    · cases h
      exact Or.inr (Or.inl ⟨by simp [hwork], by rw [hwork]; rfl, rfl, rfl, by simp⟩)
    · cases h
      exact Or.inr (Or.inl ⟨by simp [hwork], by rw [hwork]; rfl, rfl, rfl, by simp⟩)
  case h_5 event product iri resourceType rows hwork =>
    cases h
    refine Or.inr (Or.inl ⟨by simp [hwork], by rw [hwork]; rfl, rfl, rfl, fun e he => ?_⟩)
    rw [mem_slot_appended he]
    exact bystander_resourceDeletedEvent _ _ event product iri
  case h_6 nodeIri nodeName announced hwork =>
    cases h
    exact Or.inr (Or.inr (Or.inl ⟨nodeIri, nodeName, announced, hwork, rfl, rfl, rfl⟩))
  case h_7 nodeIri nodeName iri resourceType product rows hwork =>
    cases h
    exact Or.inr (Or.inr (Or.inr (Or.inl
      ⟨nodeIri, nodeName, (iri, resourceType, product), rows, hwork, rfl, rfl, rfl⟩)))
  case h_8 nodeIri nodeName iri resourceType product rows correlationId hwork =>
    cases h
    exact Or.inr (Or.inr (Or.inr (Or.inr
      ⟨nodeIri, nodeName, (iri, resourceType, product), rows, correlationId, hwork, rfl, rfl, rfl⟩)))

/-- Only the announcement of a failure leads to rescheduling. -/
theorem takeEvent_reschedules (h : e.eventType ≠ "NodeUnreachable") (error : Option String)
    (b : Backends) : (takeEvent cfg graph e error b).1.reschedules = false := by
  unfold takeEvent
  split_ifs
  · split <;> rfl
  · split <;> rfl
  · rfl

theorem takeEvent_unreachable (htype : e.eventType = "NodeUnreachable") {nodeIri : String}
    (hiri : e.payload.text "node_iri" = some nodeIri) (error : Option String) (b : Backends) :
    ∃ nodeName, (takeEvent cfg graph e error b).1 =
      .reschedule nodeIri nodeName (workloadQuery cfg graph nodeIri) none := by
  unfold takeEvent
  rw [if_neg (by rw [htype]; decide), if_neg (by rw [htype]; decide), if_pos htype, hiri]
  exact ⟨_, rfl⟩

end Provisioner

/-! ## What is declared again -/

/-- A workload that is declared again is provisioned as it was declared, exactly if it was declared
with default values. -/
theorem redeclared_unchanged_iff {api : ApiConfig} {pcfg : ProvisionConfig} {iris : IriBuilder}
    {slot : Slot} {correlationId : Uuid} {product : Option String} {decl : ResourceDeclaration}
    {iri resourceType : String} {spec : WorkloadSpec}
    (h : specOf api decl = some (iri, resourceType, spec)) :
    provisionCalls pcfg (redeclaredEvent iris slot correlationId iri resourceType product) =
      [.schedule ⟨iri⟩ spec] ↔ OnlyDefaults api decl := by
  cases decl with
  | container c =>
    cases h
    change [BackendCall.schedule _ (.container ⟨"unknown", "default", ⟨none, none⟩, [], [], [], none,
      .always, none⟩)] = _ ↔ _
    simp only [OnlyDefaults, List.cons.injEq, BackendCall.schedule.injEq,
      WorkloadSpec.container.injEq, ContainerDecl.toSpec, ContainerSpec.mk.injEq, resourceLimits,
      ResourceLimits.mk.injEq, envValues, true_and, and_true, List.nil_eq, List.map_eq_nil_iff]
    constructor
    · rintro ⟨himage, hidentity, ⟨hcpu, hmemory⟩, hmounts, henv, hports⟩
      exact ⟨himage.symm, hidentity.symm, hcpu.symm, hmemory.symm, hmounts, henv, hports⟩
    · rintro ⟨himage, hidentity, hcpu, hmemory, hmounts, henv, hports⟩
      exact ⟨himage.symm, hidentity.symm, ⟨hcpu.symm, hmemory.symm⟩, hmounts, henv, hports⟩
  | binary b =>
    cases h
    change [BackendCall.schedule _ (.binary ⟨"unknown", [], "default", ⟨none, none⟩, [], [],
      .always, none⟩)] = _ ↔ _
    simp only [OnlyDefaults, List.cons.injEq, BackendCall.schedule.injEq,
      WorkloadSpec.binary.injEq, BinaryDecl.toSpec, BinarySpec.mk.injEq, resourceLimits,
      ResourceLimits.mk.injEq, envValues, true_and, and_true, List.nil_eq, List.map_eq_nil_iff]
    constructor
    · rintro ⟨hexecutable, hargs, hidentity, ⟨hcpu, hmemory⟩, hmounts, henv⟩
      exact ⟨hexecutable.symm, hargs, hidentity.symm, hcpu.symm, hmemory.symm, hmounts, henv⟩
    · rintro ⟨hexecutable, hargs, hidentity, hcpu, hmemory, hmounts, henv⟩
      exact ⟨hexecutable.symm, hargs, hidentity.symm, ⟨hcpu.symm, hmemory.symm⟩, hmounts, henv⟩
  | _ => cases h

/-! ## The invariant -/

/-- The event announces a failed node. -/
def isUnreachable (e : EventEnvelope) : Bool := e.eventType = "NodeUnreachable"

/-- How far the leader has come, with the workloads that it has still to announce and to declare
again. -/
inductive Stage (recorded : List (String × String × Option String)) (log : List EventEnvelope)
    (n : Survivor) : (announce declare : List (String × String × Option String)) → Prop
  | waiting (hwatching : n.watching = true)
      (hnone : (log.drop n.provisioner.taken).countP isUnreachable = 0)
      (hwork : n.provisioner.work.reschedules = false) : Stage recorded log n recorded recorded
  | announced (hwatching : n.watching = false)
      (hone : (log.drop n.provisioner.taken).countP isUnreachable = 1)
      (hwork : n.provisioner.work.reschedules = false) : Stage recorded log n recorded recorded
  | working {nodeIri nodeName : String} {rows : List (String × String × Option String)}
      (hwatching : n.watching = false)
      (hnone : (log.drop n.provisioner.taken).countP isUnreachable = 0)
      (hwork : n.provisioner.work = .reschedule nodeIri nodeName rows none)
      (hrows : rows ⊆ recorded) : Stage recorded log n rows rows
  | halfway {nodeIri nodeName : String} {row : String × String × Option String}
      {rows : List (String × String × Option String)} {correlationId : Uuid}
      (hwatching : n.watching = false)
      (hnone : (log.drop n.provisioner.taken).countP isUnreachable = 0)
      (hwork : n.provisioner.work = .reschedule nodeIri nodeName (row :: rows) (some correlationId))
      (hrows : row :: rows ⊆ recorded) : Stage recorded log n rows (row :: rows)
  | finished (hwatching : n.watching = false)
      (hnone : (log.drop n.provisioner.taken).countP isUnreachable = 0)
      (hwork : n.provisioner.work.reschedules = false) : Stage recorded log n [] []

/-- The events appended so far, and those still owed, are one for every record. -/
def Balanced (eventType : String) (recorded : List (String × String × Option String))
    (added : List EventEnvelope) (owed : List (String × String × Option String)) : Prop :=
  ∀ workload, added.countP (isAbout eventType workload) + (owed.map Prod.fst).count workload =
    (recorded.map Prod.fst).count workload

/-- The announcements from a position on are of one node. -/
def Announces (nodeIri : String) (log : List EventEnvelope) (taken : ℕ) : Prop :=
  ∀ e ∈ log.drop taken, e.eventType = "NodeUnreachable" →
    e.payload.text "node_iri" = some nodeIri

/-- The leader is at a stage of the log, and the events appended so far are in balance with it. -/
structure Underway (nodeIri : String) (recorded : List (String × String × Option String))
    (log : List EventEnvelope) (added : List EventEnvelope) (n : Survivor)
    (announce declare : List (String × String × Option String)) : Prop where
  taken : n.provisioner.taken ≤ log.length
  announces : Announces nodeIri log n.provisioner.taken
  stage : Stage recorded log n announce declare
  announced : Balanced "WorkloadRescheduled" recorded added announce
  declared : Balanced "ResourceDeclared" recorded added declare

/-- The event declares one of the records again. -/
def Redeclares (iris : IriBuilder) (recorded : List (String × String × Option String))
    (e : EventEnvelope) : Prop :=
  ∃ slot correlationId, ∃ row ∈ recorded,
    e = redeclaredEvent iris slot correlationId row.1 row.2.1 row.2.2

/-- The leader has applied, taken and appended its part of the events. -/
structure LeaderAt (nodeIri : String) (recorded : List (String × String × Option String)) (s : Survivors)
    (n : Survivor) (announce declare : List (String × String × Option String)) : Prop where
  applied : n.applied ≤ s.committed.length
  taken : n.provisioner.taken ≤ n.log.length
  underway : Underway nodeIri recorded (s.ahead n) s.appended n announce declare

/-- The invariant of a run. -/
structure RescheduleSound (cfg : NodeConfig) (peer : PeerInfo) (history : List EventEnvelope)
    (leader : ℕ) (s : Survivors) : Prop where
  /-- New declarations are of the recorded workloads. -/
  redeclared : ∀ e ∈ s.appended, e.eventType = "ResourceDeclared" →
    Redeclares cfg.env.iris (recordedRows cfg peer history) e
  leader : ∃ n announce declare, s.nodes[leader]? = some n ∧
    LeaderAt (cfg.env.iris.node peer.nodeName) (recordedRows cfg peer history) s n announce declare

/-! ### Balances -/

section Balances

variable {eventType : String} {recorded owed : List (String × String × Option String)}
  {added events : List EventEnvelope}

theorem balanced_nil : Balanced eventType recorded [] recorded := fun _ => by
  rw [List.countP_nil, Nat.zero_add]

/-- Events of other types pay nothing. -/
theorem Balanced.append (h : Balanced eventType recorded added owed)
    (hother : ∀ e ∈ events, e.eventType ≠ eventType) :
    Balanced eventType recorded (added ++ events) owed := by
  intro workload
  have hnone : events.countP (isAbout eventType workload) = 0 := by
    apply List.countP_eq_zero.mpr
    intro e he
    simp [isAbout, hother e he]
  rw [List.countP_append, hnone]
  exact h workload

/-- The event that is owed for a record. -/
theorem Balanced.pay {row : String × String × Option String} {e : EventEnvelope}
    (h : Balanced eventType recorded added (row :: owed)) (htype : e.eventType = eventType)
    (hsource : e.source.value = row.1) :
    Balanced eventType recorded (added ++ [e]) owed := by
  intro workload
  have hone : [e].countP (isAbout eventType workload) = [row.1].count workload := by
    rw [List.count_eq_countP]
    simp only [List.countP_cons, List.countP_nil, isAbout, htype, hsource, decide_true,
      Bool.true_and, beq_iff_eq, decide_eq_true_eq]
  have hbefore := h workload
  rw [List.map_cons, List.count_cons] at hbefore
  rw [List.countP_append, hone, List.count_singleton]
  omega

/-- The records may be taken in any order. -/
theorem Balanced.perm (h : Balanced eventType recorded added owed)
    {rows : List (String × String × Option String)} (hperm : rows.Perm owed) :
    Balanced eventType recorded added rows := by
  intro workload
  rw [(hperm.map Prod.fst).count_eq workload]
  exact h workload

end Balances

/-! ### Stages -/

section Stages

variable {recorded announce declare : List (String × String × Option String)}
  {log events : List EventEnvelope} {n n' : Survivor}

/-- The stage depends on the announcements that are not yet taken. -/
theorem countP_unreachable_append (htaken : n.provisioner.taken ≤ log.length)
    (hnone : ∀ e ∈ events, e.eventType ≠ "NodeUnreachable") :
    ((log ++ events).drop n.provisioner.taken).countP isUnreachable =
      (log.drop n.provisioner.taken).countP isUnreachable := by
  have hzero : events.countP isUnreachable = 0 := by
    apply List.countP_eq_zero.mpr
    intro e he
    simp [isUnreachable, hnone e he]
  rw [List.drop_append_of_le_length htaken, List.countP_append, hzero, Nat.add_zero]

theorem Stage.append (h : Stage recorded log n announce declare)
    (htaken : n.provisioner.taken ≤ log.length)
    (hnone : ∀ e ∈ events, e.eventType ≠ "NodeUnreachable") :
    Stage recorded (log ++ events) n announce declare := by
  have heq := countP_unreachable_append htaken hnone
  cases h with
  | waiting hwatching hzero hwork => exact .waiting hwatching (heq.trans hzero) hwork
  | announced hwatching hone hwork => exact .announced hwatching (heq.trans hone) hwork
  | working hwatching hzero hwork hrows => exact .working hwatching (heq.trans hzero) hwork hrows
  | halfway hwatching hzero hwork hrows => exact .halfway hwatching (heq.trans hzero) hwork hrows
  | finished hwatching hzero hwork => exact .finished hwatching (heq.trans hzero) hwork

theorem Stage.congr (h : Stage recorded log n announce declare) (hwatching : n'.watching = n.watching)
    (htaken : n'.provisioner.taken = n.provisioner.taken)
    (hwork : n'.provisioner.work = n.provisioner.work) : Stage recorded log n' announce declare := by
  cases h with
  | waiting hw hzero hidle =>
    exact .waiting (hwatching.trans hw) (by rw [htaken]; exact hzero) (by rw [hwork]; exact hidle)
  | announced hw hone hidle =>
    exact .announced (hwatching.trans hw) (by rw [htaken]; exact hone) (by rw [hwork]; exact hidle)
  | working hw hzero hrows hsub =>
    exact .working (hwatching.trans hw) (by rw [htaken]; exact hzero) (hwork.trans hrows) hsub
  | halfway hw hzero hrows hsub =>
    exact .halfway (hwatching.trans hw) (by rw [htaken]; exact hzero) (hwork.trans hrows) hsub
  | finished hw hzero hidle =>
    exact .finished (hwatching.trans hw) (by rw [htaken]; exact hzero) (by rw [hwork]; exact hidle)

/-- Work that is no rescheduling may be replaced by other such work. -/
theorem Stage.rework (h : Stage recorded log n announce declare)
    (hbefore : n.provisioner.work.reschedules = false) (hwatching : n'.watching = n.watching)
    (hcount : (log.drop n'.provisioner.taken).countP isUnreachable =
      (log.drop n.provisioner.taken).countP isUnreachable)
    (hafter : n'.provisioner.work.reschedules = false) :
    Stage recorded log n' announce declare := by
  cases h with
  | waiting hw hzero _ => exact .waiting (hwatching.trans hw) (hcount.trans hzero) hafter
  | announced hw hone _ => exact .announced (hwatching.trans hw) (hcount.trans hone) hafter
  | working _ _ hwork _ => rw [hwork] at hbefore; cases hbefore
  | halfway _ _ hwork _ => rw [hwork] at hbefore; cases hbefore
  | finished hw hzero _ => exact .finished (hwatching.trans hw) (hcount.trans hzero) hafter

end Stages

/-! ### Steps of the leader -/

section Announces

variable {nodeIri : String} {log : List EventEnvelope} {taken : ℕ}

theorem Announces.append (h : Announces nodeIri log taken) (htaken : taken ≤ log.length)
    {events : List EventEnvelope} (hevents : ∀ e ∈ events, e.eventType = "NodeUnreachable" →
      e.payload.text "node_iri" = some nodeIri) : Announces nodeIri (log ++ events) taken := by
  intro e he
  rw [List.drop_append_of_le_length htaken] at he
  rcases List.mem_append.mp he with he | he
  · exact h e he
  · exact hevents e he

theorem Announces.succ (h : Announces nodeIri log taken) : Announces nodeIri log (taken + 1) := by
  intro e he
  rw [← List.drop_drop] at he
  exact h e (List.mem_of_mem_drop he)

theorem Announces.getElem? (h : Announces nodeIri log taken) {e : EventEnvelope}
    (he : log[taken]? = some e) (htype : e.eventType = "NodeUnreachable") :
    e.payload.text "node_iri" = some nodeIri := by
  apply h e _ htype
  obtain ⟨hi, rfl⟩ := List.getElem?_eq_some_iff.mp he
  rw [List.drop_eq_getElem_cons hi]
  exact List.mem_cons_self

end Announces

section Leader

variable {cfg : NodeConfig} {iri : String}
  {recorded announce declare : List (String × String × Option String)}
  {log added events : List EventEnvelope} {n n' : Survivor} {p' : Provisioner} {o : StepOutcome}

/-- Neither the watcher nor the provisioner has made a step. -/
theorem Underway.quiet (h : Underway iri recorded log added n announce declare)
    (hwatching : n'.watching = n.watching)
    (htaken : n'.provisioner.taken = n.provisioner.taken)
    (hwork : n'.provisioner.work = n.provisioner.work) {logged : List EventEnvelope}
    (hlogged : ∀ e ∈ logged, Bystander e) (hevents : ∀ e ∈ events, Bystander e) :
    Underway iri recorded (log ++ logged) (added ++ events) n' announce declare where
  taken := by
    have := h.taken
    rw [htaken, List.length_append]
    omega
  announces := by
    rw [htaken]
    exact h.announces.append h.taken fun e he htype => absurd htype (hlogged e he).1
  stage := (h.stage.append h.taken fun e he => (hlogged e he).1).congr hwatching htaken hwork
  announced := h.announced.append fun e he => (hevents e he).2.1
  declared := h.declared.append fun e he => (hevents e he).2.2

/-- Nor is anything appended. -/
theorem Underway.still (h : Underway iri recorded log added n announce declare)
    (hwatching : n'.watching = n.watching)
    (htaken : n'.provisioner.taken = n.provisioner.taken)
    (hwork : n'.provisioner.work = n.provisioner.work) :
    Underway iri recorded log added n' announce declare := by
  have hnone : ∀ e ∈ ([] : List EventEnvelope), Bystander e := List.forall_mem_nil _
  have hquiet := h.quiet hwatching htaken hwork hnone hnone
  rw [List.append_nil, List.append_nil] at hquiet
  exact hquiet

/-- The events that are not yet taken may come in another order. -/
theorem Underway.reorder (h : Underway iri recorded log added n announce declare)
    {log' : List EventEnvelope} (htaken : n.provisioner.taken ≤ log'.length)
    (hperm : (log'.drop n.provisioner.taken).Perm (log.drop n.provisioner.taken)) :
    Underway iri recorded log' added n announce declare where
  taken := htaken
  announces := fun e he => h.announces e (hperm.mem_iff.mp he)
  stage := by
    have hcount := hperm.countP_eq isUnreachable
    cases h.stage with
    | waiting hwatching hzero hwork => exact .waiting hwatching (hcount.trans hzero) hwork
    | announced hwatching hone hwork => exact .announced hwatching (hcount.trans hone) hwork
    | working hwatching hzero hwork hrows => exact .working hwatching (hcount.trans hzero) hwork hrows
    | halfway hwatching hzero hwork hrows => exact .halfway hwatching (hcount.trans hzero) hwork hrows
    | finished hwatching hzero hwork => exact .finished hwatching (hcount.trans hzero) hwork
  announced := h.announced
  declared := h.declared

variable {e : EventEnvelope} {nodeIri nodeName : String}
  {rows : List (String × String × Option String)}

/-- Without an announcement, taking an event does not change the number of those left. -/
theorem countP_unreachable_take {i : ℕ} (he : log[i]? = some e) :
    (log.drop i).countP isUnreachable =
      (log.drop (i + 1)).countP isUnreachable + (isUnreachable e).toNat := by
  obtain ⟨hi, rfl⟩ := List.getElem?_eq_some_iff.mp he
  rw [List.drop_eq_getElem_cons hi, List.countP_cons]
  cases isUnreachable log[i] <;> rfl

/-- The provisioner takes an event that announces no failure. -/
theorem Underway.takeOther (h : Underway iri recorded log added n announce declare)
    (hidle : n.provisioner.work = .idle) (he : log[n.provisioner.taken]? = some e)
    (htype : e.eventType ≠ "NodeUnreachable") (htaken : p'.taken = n.provisioner.taken + 1)
    (hwork : p'.work.reschedules = false) :
    Underway iri recorded log added { n with provisioner := p' } announce declare where
  taken := by
    have hlt := (List.getElem?_eq_some_iff.mp he).1
    change p'.taken ≤ _
    omega
  announces := by
    change Announces iri log p'.taken
    rw [htaken]
    exact h.announces.succ
  stage := by
    have hcount := countP_unreachable_take he
    have hother : isUnreachable e = false := by simp [isUnreachable, htype]
    rw [hother] at hcount
    refine h.stage.rework (by rw [hidle]; rfl) rfl ?_ hwork
    change (log.drop p'.taken).countP _ = _
    rw [htaken]
    exact hcount.symm
  announced := h.announced
  declared := h.declared

/-- The provisioner takes the announcement. -/
theorem Underway.takeUnreachable (h : Underway iri recorded log added n announce declare)
    (hidle : n.provisioner.work = .idle) (he : log[n.provisioner.taken]? = some e)
    (htype : e.eventType = "NodeUnreachable") (htaken : p'.taken = n.provisioner.taken + 1)
    (hwork : p'.work = .reschedule nodeIri nodeName rows none) (hrows : rows.Perm recorded) :
    Underway iri recorded log added { n with provisioner := p' } rows rows := by
  have hcount := countP_unreachable_take he
  have hthis : isUnreachable e = true := by simp [isUnreachable, htype]
  rw [hthis] at hcount
  have hlt := (List.getElem?_eq_some_iff.mp he).1
  have htaken' : p'.taken ≤ log.length := by omega
  cases h.stage with
  | waiting _ hzero _ => rw [hzero] at hcount; cases hcount
  | announced hwatching hone _ =>
    have hzero : (log.drop p'.taken).countP isUnreachable = 0 := by
      rw [hone, Bool.toNat_true] at hcount
      rw [htaken]
      omega
    have hannounces : Announces iri log p'.taken := by
      rw [htaken]
      exact h.announces.succ
    exact ⟨htaken', hannounces, .working hwatching hzero hwork hrows.subset,
      h.announced.perm hrows, h.declared.perm hrows⟩
  | working _ _ hwork _ => rw [hidle] at hwork; cases hwork
  | halfway _ _ hwork _ => rw [hidle] at hwork; cases hwork
  | finished _ hzero _ => rw [hzero] at hcount; cases hcount

/-- The provisioner goes on with other work. -/
theorem Underway.workOther (h : Underway iri recorded log added n announce declare)
    (hbefore : n.provisioner.work.reschedules = false) (htaken : p'.taken = n.provisioner.taken)
    (hafter : p'.work.reschedules = false) (hevents : ∀ e ∈ events, Bystander e) :
    Underway iri recorded (log ++ events) (added ++ events) { n with provisioner := p' } announce
      declare := by
  have hcount : (log.drop p'.taken).countP isUnreachable =
      (log.drop n.provisioner.taken).countP isUnreachable := by rw [htaken]
  have hthere : Underway iri recorded log added { n with provisioner := p' } announce declare :=
    ⟨htaken.le.trans h.taken, htaken ▸ h.announces, h.stage.rework hbefore rfl hcount hafter,
      h.announced, h.declared⟩
  exact hthere.quiet rfl rfl rfl hevents hevents

/-- All workloads are declared again. -/
theorem Underway.finish {announced : Option Uuid}
    (h : Underway iri recorded log added n announce declare)
    (hwork : n.provisioner.work = .reschedule nodeIri nodeName [] announced)
    (htaken : p'.taken = n.provisioner.taken) (hwork' : p'.work = .idle) :
    Underway iri recorded log added { n with provisioner := p' } [] [] := by
  have htaken' : p'.taken ≤ log.length := htaken.le.trans h.taken
  cases hstage : h.stage with
  | waiting _ _ hother => rw [hwork] at hother; cases hother
  | announced _ _ hother => rw [hwork] at hother; cases hother
  | working hwatching hzero hrows _ =>
    cases hrows.symm.trans hwork
    have hzero' : (log.drop p'.taken).countP isUnreachable = 0 := by rw [htaken]; exact hzero
    exact ⟨htaken', htaken ▸ h.announces, .finished hwatching hzero' (by rw [hwork']; rfl),
      h.announced, h.declared⟩
  | halfway _ _ hrows _ => cases hwork.symm.trans hrows
  | finished _ _ hother => rw [hwork] at hother; cases hother

/-- The next workload is announced. -/
theorem Underway.announceNext {row : String × String × Option String} {correlationId : Uuid}
    (h : Underway iri recorded log added n announce declare)
    (hwork : n.provisioner.work = .reschedule nodeIri nodeName (row :: rows) none)
    (htaken : p'.taken = n.provisioner.taken)
    (hwork' : p'.work = .reschedule nodeIri nodeName (row :: rows) (some correlationId))
    (htype : e.eventType = "WorkloadRescheduled") (hsource : e.source.value = row.1) :
    Underway iri recorded (log ++ [e]) (added ++ [e]) { n with provisioner := p' } rows
      (row :: rows) := by
  cases hstage : h.stage with
  | waiting _ _ hother => rw [hwork] at hother; cases hother
  | announced _ _ hother => rw [hwork] at hother; cases hother
  | halfway _ _ hrows _ => cases hwork.symm.trans hrows
  | finished _ _ hother => rw [hwork] at hother; cases hother
  | working hwatching hzero hrows hsub =>
    cases hrows.symm.trans hwork
    have htaken' : p'.taken ≤ log.length := htaken.le.trans h.taken
    have hstage' : Stage recorded log { n with provisioner := p' } rows (row :: rows) :=
      .halfway hwatching (by change (log.drop p'.taken).countP _ = 0; rw [htaken]; exact hzero)
        hwork' hsub
    have hannounces : Announces iri log p'.taken := htaken ▸ h.announces
    refine ⟨?_, hannounces.append htaken' ?_, hstage'.append htaken' ?_,
      h.announced.pay htype hsource, h.declared.append ?_⟩
    · rw [List.length_append]
      exact Nat.le_add_right_of_le htaken'
    · simp [htype]
    · simp [htype]
    · simp [htype]

/-- The announced workload is declared again. -/
theorem Underway.redeclareNext {row : String × String × Option String} {correlationId : Uuid}
    (h : Underway iri recorded log added n announce declare)
    (hwork : n.provisioner.work = .reschedule nodeIri nodeName (row :: rows) (some correlationId))
    (htaken : p'.taken = n.provisioner.taken)
    (hwork' : p'.work = .reschedule nodeIri nodeName rows none)
    (htype : e.eventType = "ResourceDeclared") (hsource : e.source.value = row.1) :
    Underway iri recorded (log ++ [e]) (added ++ [e]) { n with provisioner := p' } rows rows ∧
      row ∈ recorded := by
  cases hstage : h.stage with
  | waiting _ _ hother => rw [hwork] at hother; cases hother
  | announced _ _ hother => rw [hwork] at hother; cases hother
  | working _ _ hrows _ => cases hwork.symm.trans hrows
  | finished _ _ hother => rw [hwork] at hother; cases hother
  | halfway hwatching hzero hrows hsub =>
    obtain ⟨-, -, hcons, -⟩ := Work.reschedule.inj (hwork.symm.trans hrows)
    obtain ⟨rfl, rfl⟩ := List.cons.inj hcons
    have htaken' : p'.taken ≤ log.length := htaken.le.trans h.taken
    have hstage' : Stage recorded log { n with provisioner := p' } rows rows :=
      .working hwatching (by change (log.drop p'.taken).countP _ = 0; rw [htaken]; exact hzero)
        hwork' (fun r hr => hsub (List.mem_cons_of_mem _ hr))
    have hannounces : Announces iri log p'.taken := htaken ▸ h.announces
    refine ⟨⟨?_, hannounces.append htaken' ?_, hstage'.append htaken' ?_, h.announced.append ?_,
      h.declared.pay htype hsource⟩, hsub List.mem_cons_self⟩
    · rw [List.length_append]
      exact Nat.le_add_right_of_le htaken'
    · simp [htype]
    · simp [htype]
    · simp [htype]

/-- Every step of the provisioner of the leader, which reads the front of the log. -/
theorem Underway.provision (h : Underway iri recorded log added n announce declare)
    (hlog : n.log <+: log) (hnext : n.provisioner.next cfg n.log n.graph o = some (p', events))
    (haccepted : n.provisioner.work.reschedules = true → o.slot.refused = none)
    (hquery : n.provisioner.work = .idle → ∀ e ∈ n.log[n.provisioner.taken]?,
      e.eventType = "NodeUnreachable" → (workloadQuery cfg n.graph iri).Perm recorded) :
    (∃ announce declare, Underway iri recorded (log ++ events) (added ++ events)
      { n with provisioner := p' } announce declare) ∧
      ∀ e ∈ events, e.eventType = "ResourceDeclared" → Redeclares cfg.env.iris recorded e := by
  have happended : ∀ e, n.provisioner.work.reschedules = true → o.slot.appended e = [e] :=
    fun e hwork => by rw [Slot.appended, haccepted hwork]
  obtain ⟨e, hidle, hread, htaken, hwork, rfl⟩ | ⟨-, hbefore, htaken, hafter, hevents⟩ |
    ⟨_, _, _, hbefore, htaken, hafter, rfl⟩ | ⟨_, _, row, rows, hbefore, htaken, hafter, rfl⟩ |
    ⟨_, _, row, rows, _, hbefore, htaken, hafter, rfl⟩ := Provisioner.next_cases hnext
  · have he : log[n.provisioner.taken]? = some e := by
      obtain ⟨rest, hrest⟩ := hlog
      rw [← hrest, List.getElem?_append_left (List.getElem?_eq_some_iff.mp hread).1, hread]
    rw [List.append_nil, List.append_nil]
    refine ⟨?_, by simp⟩
    by_cases htype : e.eventType = "NodeUnreachable"
    · have htake : ∃ nodeName, (takeEvent cfg n.graph e o.error n.provisioner.backends).1 =
          .reschedule iri nodeName (workloadQuery cfg n.graph iri) none :=
        takeEvent_unreachable htype (h.announces.getElem? he htype) _ _
      obtain ⟨nodeName, htake⟩ := htake
      exact ⟨_, _, h.takeUnreachable hidle he htype htaken (hwork.trans htake)
        (hquery hidle e hread htype)⟩
    · exact ⟨_, _, h.takeOther hidle he htype htaken
        (by rw [hwork]; exact takeEvent_reschedules htype _ _)⟩
  · refine ⟨⟨_, _, h.workOther hbefore htaken hafter hevents⟩, fun e he htype => ?_⟩
    exact absurd htype (hevents e he).2.2
  · rw [List.append_nil, List.append_nil]
    exact ⟨⟨_, _, h.finish hbefore htaken hafter⟩, by simp⟩
  · rw [happended _ (by rw [hbefore]; rfl)]
    refine ⟨⟨_, _, h.announceNext hbefore htaken hafter rfl rfl⟩, fun e he htype => ?_⟩
    rw [List.mem_singleton.mp he] at htype
    exact absurd htype (show "WorkloadRescheduled" ≠ _ by decide)
  · rw [happended _ (by rw [hbefore]; rfl)]
    obtain ⟨hunderway, hrow⟩ := h.redeclareNext (e := redeclaredEvent cfg.env.iris o.slot _ row.1
      row.2.1 row.2.2) hbefore htaken hafter rfl rfl
    refine ⟨⟨_, _, hunderway⟩, fun e he _ => ?_⟩
    rw [List.mem_singleton.mp he]
    exact ⟨_, _, row, hrow, rfl⟩

end Leader

/-- A provisioner takes no more than its log has. -/
theorem Provisioner.taken_le_of_next {cfg : NodeConfig} {log events : List EventEnvelope}
    {graph : Store} {p p' : Provisioner} {o : StepOutcome}
    (h : p.next cfg log graph o = some (p', events)) (htaken : p.taken ≤ log.length) :
    p'.taken ≤ log.length := by
  obtain ⟨_, _, he, heq, _⟩ | ⟨_, _, heq, _⟩ | ⟨_, _, _, _, heq, _⟩ | ⟨_, _, _, _, _, heq, _⟩ |
    ⟨_, _, _, _, _, _, heq, _⟩ := Provisioner.next_cases h
  · have hlt := (List.getElem?_eq_some_iff.mp he).1
    omega
  all_goals exact heq.le.trans htaken

/-- A provisioner whose announcements and declarations are refused appends only bystanders. -/
theorem Provisioner.next_bystander {cfg : NodeConfig} {log events : List EventEnvelope}
    {graph : Store} {p p' : Provisioner} {o : StepOutcome}
    (h : p.next cfg log graph o = some (p', events))
    (hrefused : p.work.reschedules = true → o.slot.refused ≠ none) :
    ∀ e ∈ events, Bystander e := by
  have hnone : ∀ f, p.work.reschedules = true → o.slot.appended f = [] := by
    intro f hwork
    cases hslot : o.slot.refused with
    | none => exact absurd hslot (hrefused hwork)
    | some reason => rw [Slot.appended, hslot]
  obtain ⟨_, _, _, _, _, rfl⟩ | ⟨_, _, _, _, hevents⟩ | ⟨_, _, _, _, _, _, rfl⟩ |
    ⟨_, _, _, _, hbefore, _, _, rfl⟩ | ⟨_, _, _, _, _, hbefore, _, _, rfl⟩ :=
    Provisioner.next_cases h
  · simp
  · exact hevents
  · simp
  · rw [hnone _ (by rw [hbefore]; rfl)]
    simp
  · rw [hnone _ (by rw [hbefore]; rfl)]
    simp

/-! ### Runs -/

section Runs

variable {cfg : NodeConfig} {peer : PeerInfo} {history added events : List EventEnvelope}
  {leader : ℕ} {s s' : Survivors} {iri : String}
  {recorded announce declare : List (String × String × Option String)} {n : Survivor}

theorem set_getElem?_of_some {i : ℕ} (hn : s.nodes[i]? = some n) (m : Survivor) :
    (s.nodes.set i m)[i]? = some m :=
  List.getElem?_set_self (List.getElem?_eq_some_iff.mp hn).1

theorem appended_writeThrough (i : ℕ) (n : Survivor) (route : AppendRoute) :
    (s.writeThrough i n events route).appended = s.appended ++ events := by
  cases route <;> rfl

/-- The leader appends, on either route. -/
theorem leaderAt_writeThrough {m : Survivor} (hm : s.nodes[leader]? = some m)
    (happlied : n.applied ≤ s.committed.length) (htaken : n.provisioner.taken ≤ n.log.length)
    (h : Underway iri recorded (s.ahead n ++ events) (s.appended ++ events) n announce declare)
    (route : AppendRoute) :
    ∃ n', (s.writeThrough leader n events route).nodes[leader]? = some n' ∧
      LeaderAt iri recorded (s.writeThrough leader n events route) n' announce declare := by
  cases route with
  | raft =>
    refine ⟨n, set_getElem?_of_some hm n, ?_, htaken, ?_⟩
    · exact happlied.trans (by simp [Survivors.writeThrough])
    · have hahead : (s.writeThrough leader n events .raft).ahead n = s.ahead n ++ events := by
        rw [Survivors.ahead, Survivors.ahead, Survivors.writeThrough,
          List.drop_append_of_le_length happlied, List.append_assoc]
      rw [hahead]
      exact h
  | fallback =>
    refine ⟨_, set_getElem?_of_some hm _, happlied, htaken.trans (by simp), ?_⟩
    -- the events come before those that are committed and not yet applied
    have hahead : (s.writeThrough leader n events .fallback).ahead { n with log := n.log ++ events } =
        n.log ++ events ++ s.committed.drop n.applied := rfl
    have hlength : n.provisioner.taken ≤
        (n.log ++ events ++ s.committed.drop n.applied).length := by
      rw [List.append_assoc, List.length_append]
      omega
    have hreordered := h.reorder hlength (by
      rw [Survivors.ahead, List.append_assoc, List.append_assoc, List.drop_append_of_le_length htaken,
        List.drop_append_of_le_length htaken]
      exact List.perm_append_comm.append_left _)
    rw [hahead]
    exact hreordered.still rfl rfl rfl

/-- Another survivor appends bystanders. -/
theorem LeaderAt.of_writeThrough (h : LeaderAt iri recorded s n announce declare)
    (hn : s.nodes[leader]? = some n) {i : ℕ} (hi : i ≠ leader) (m : Survivor)
    (hevents : ∀ e ∈ events, Bystander e) (route : AppendRoute) :
    (s.writeThrough i m events route).nodes[leader]? = some n ∧
      LeaderAt iri recorded (s.writeThrough i m events route) n announce declare := by
  cases route with
  | raft =>
    refine ⟨(List.getElem?_set_ne hi).trans hn, h.applied.trans (by simp [Survivors.writeThrough]),
      h.taken, ?_⟩
    have hahead : (s.writeThrough i m events .raft).ahead n = s.ahead n ++ events := by
      rw [Survivors.ahead, Survivors.ahead, Survivors.writeThrough,
        List.drop_append_of_le_length h.applied, List.append_assoc]
    rw [hahead]
    exact h.underway.quiet rfl rfl rfl hevents hevents
  | fallback =>
    refine ⟨(List.getElem?_set_ne hi).trans hn, h.applied, h.taken, ?_⟩
    have hnone : ∀ e ∈ ([] : List EventEnvelope), Bystander e := List.forall_mem_nil _
    have hquiet := h.underway.quiet rfl rfl rfl hnone hevents
    rw [List.append_nil] at hquiet
    exact hquiet

/-- Nothing is appended, and of the leader only what it has projected or applied changes. -/
theorem RescheduleSound.still (h : RescheduleSound cfg peer history leader s) {i : ℕ} {m : Survivor}
    (hm : s.nodes[i]? = some m) (m' : Survivor) (hwatching : m'.watching = m.watching)
    (hprovisioner : m'.provisioner = m.provisioner) (hlog : m.log.length ≤ m'.log.length)
    (happlied : m.applied ≤ s.committed.length → m'.applied ≤ s.committed.length)
    (hahead : s.ahead m' = s.ahead m) :
    RescheduleSound cfg peer history leader { s with nodes := s.nodes.set i m' } := by
  obtain ⟨n, announce, declare, hn, hleader⟩ := h.leader
  refine ⟨h.redeclared, ?_⟩
  by_cases hi : i = leader
  · subst hi
    obtain rfl : m = n := Option.some.inj (hm.symm.trans hn)
    refine ⟨m', announce, declare, set_getElem?_of_some hm m', happlied hleader.applied,
      (hprovisioner ▸ hleader.taken).trans hlog, ?_⟩
    have hstill := hleader.underway.still hwatching (by rw [hprovisioner]) (by rw [hprovisioner])
    rw [← hahead] at hstill
    exact hstill
  · exact ⟨n, announce, declare, (List.getElem?_set_ne hi).trans hn, hleader.applied, hleader.taken,
      hleader.underway⟩

/-- The watcher of the leader announces the failed node. -/
theorem Underway.watch {log : List EventEnvelope}
    (h : Underway iri recorded log added n announce declare) (hwatching : n.watching = true)
    {e : EventEnvelope} (htype : e.eventType = "NodeUnreachable")
    (hnode : e.payload.text "node_iri" = some iri) :
    Underway iri recorded (log ++ [e]) (added ++ [e]) { n with watching := false } announce
      declare := by
  have htaken : n.provisioner.taken ≤ (log ++ [e]).length := by
    have := h.taken
    rw [List.length_append]
    omega
  have hstage : Stage recorded (log ++ [e]) { n with watching := false } announce declare := by
    cases hstage : h.stage with
    | waiting _ hzero hwork =>
      refine .announced rfl ?_ hwork
      change ((log ++ [e]).drop n.provisioner.taken).countP isUnreachable = 1
      rw [List.drop_append_of_le_length h.taken, List.countP_append, hzero]
      simp [isUnreachable, htype]
    | announced hfalse _ _ => exact absurd hwatching (by rw [hfalse]; decide)
    | working hfalse _ _ _ => exact absurd hwatching (by rw [hfalse]; decide)
    | halfway hfalse _ _ _ => exact absurd hwatching (by rw [hfalse]; decide)
    | finished hfalse _ _ => exact absurd hwatching (by rw [hfalse]; decide)
  exact ⟨htaken, h.announces.append h.taken (by simpa using fun _ => hnode), hstage,
    h.announced.append (by simp [htype]), h.declared.append (by simp [htype])⟩

/-- **Every action keeps the invariant.** -/
theorem RescheduleSound.next {a : SurvivorAct}
    (h : RescheduleSound cfg peer history leader s) (hled : Led cfg peer history leader s a)
    (hnext : survivorNext cfg peer s a = some s') :
    RescheduleSound cfg peer history leader s' := by
  cases a with
  | watch i slot correlationId route =>
    obtain ⟨m, hm, hnext⟩ := Option.bind_eq_some_iff.mp hnext
    split at hnext
    case isFalse => cases hnext
    case isTrue hwatching =>
      cases hnext
      obtain ⟨n, announce, declare, hn, hleader⟩ := h.leader
      refine ⟨fun e he htype => ?_, ?_⟩
      · rw [appended_writeThrough] at he
        refine (List.mem_append.mp he).elim (fun hold => h.redeclared e hold htype) fun hnew => ?_
        rw [mem_slot_appended hnew] at htype
        exact absurd htype (show "NodeUnreachable" ≠ _ by decide)
      · by_cases hi : i = leader
        · subst hi
          obtain rfl : m = n := Option.some.inj (hm.symm.trans hn)
          have haccepted : slot.appended (nodeUnreachableEvent cfg.env.iris slot correlationId peer) =
              [nodeUnreachableEvent cfg.env.iris slot correlationId peer] := by
            rw [Slot.appended, hled.mpr rfl]
          rw [haccepted]
          obtain ⟨n', hn', hleader'⟩ := leaderAt_writeThrough hm
            (n := { m with watching := false }) hleader.applied hleader.taken (hleader.underway.watch
              (e := nodeUnreachableEvent cfg.env.iris slot correlationId peer) hwatching rfl rfl) route
          exact ⟨n', announce, declare, hn', hleader'⟩
        · have hrefused : slot.appended
              (nodeUnreachableEvent cfg.env.iris slot correlationId peer) = [] := by
            cases hslot : slot.refused with
            | none => exact absurd (hled.mp hslot) hi
            | some reason => rw [Slot.appended, hslot]
          rw [hrefused]
          obtain ⟨hn', hleader'⟩ := hleader.of_writeThrough hn hi { m with watching := false }
            (List.forall_mem_nil _) route
          exact ⟨n, announce, declare, hn', hleader'⟩
  | apply i =>
    obtain ⟨m, hm, hnext⟩ := Option.bind_eq_some_iff.mp hnext
    obtain ⟨e, he, hnext⟩ := Option.map_eq_some_iff.mp hnext
    cases hnext
    obtain ⟨hlt, rfl⟩ := List.getElem?_eq_some_iff.mp he
    refine h.still hm _ rfl rfl (by simp) (fun _ => hlt) ?_
    rw [Survivors.ahead, Survivors.ahead, List.append_assoc, List.singleton_append,
      ← List.drop_eq_getElem_cons hlt]
  | project i =>
    obtain ⟨m, hm, hnext⟩ := Option.bind_eq_some_iff.mp hnext
    obtain ⟨e, he, hnext⟩ := Option.map_eq_some_iff.mp hnext
    cases hnext
    exact h.still hm _ rfl rfl le_rfl id rfl
  | provision i o route =>
    obtain ⟨m, hm, hnext⟩ := Option.bind_eq_some_iff.mp hnext
    obtain ⟨⟨p', events⟩, hp, hnext⟩ := Option.map_eq_some_iff.mp hnext
    cases hnext
    obtain ⟨hslot, hquery⟩ := hled m hm
    obtain ⟨n, announce, declare, hn, hleader⟩ := h.leader
    by_cases hi : i = leader
    · subst hi
      obtain rfl : m = n := Option.some.inj (hm.symm.trans hn)
      obtain ⟨⟨announce', declare', hunderway⟩, hevents⟩ := hleader.underway.provision
        (List.prefix_append _ _) hp (fun hwork => (hslot hwork).mpr rfl) (hquery rfl)
      refine ⟨fun e he htype => ?_, ?_⟩
      · rw [appended_writeThrough] at he
        exact (List.mem_append.mp he).elim (fun hold => h.redeclared e hold htype) fun hnew =>
          hevents e hnew htype
      · obtain ⟨n', hn', hleader'⟩ := leaderAt_writeThrough hm (n := { m with provisioner := p' })
          hleader.applied (Provisioner.taken_le_of_next hp hleader.taken) hunderway route
        exact ⟨n', announce', declare', hn', hleader'⟩
    · have hevents := Provisioner.next_bystander hp fun hwork hnone => hi ((hslot hwork).mp hnone)
      refine ⟨fun e he htype => ?_, ?_⟩
      · rw [appended_writeThrough] at he
        exact (List.mem_append.mp he).elim (fun hold => h.redeclared e hold htype) fun hnew =>
          absurd htype (hevents e hnew).2.2
      · obtain ⟨hn', hleader'⟩ := hleader.of_writeThrough hn hi { m with provisioner := p' } hevents
          route
        exact ⟨n, announce, declare, hn', hleader'⟩

/-- The invariant at the start. -/
theorem JustRemoved.sound (h : JustRemoved s) (hleader : leader < s.nodes.length) :
    RescheduleSound cfg peer history leader s := by
  have hn : s.nodes[leader]? = some s.nodes[leader] := List.getElem?_eq_getElem hleader
  have hmem : s.nodes[leader] ∈ s.nodes := List.getElem_mem hleader
  have hnone : ((s.ahead s.nodes[leader]).drop s.nodes[leader].provisioner.taken).countP
      isUnreachable = 0 := by
    apply List.countP_eq_zero.mpr
    intro e he
    simp [isUnreachable, h.answered _ hmem e he]
  have htaken : s.nodes[leader].provisioner.taken ≤ (s.ahead s.nodes[leader]).length := by
    have := h.taken _ hmem
    rw [Survivors.ahead, List.length_append]
    omega
  refine ⟨?_, _, recordedRows cfg peer history, recordedRows cfg peer history, hn, h.applied _ hmem,
    h.taken _ hmem, ?_⟩
  · rw [h.appended]
    exact List.forall_mem_nil _
  · rw [h.appended]
    exact ⟨htaken, fun e he htype => absurd htype (h.answered _ hmem e he),
      .waiting (h.watching _ hmem) hnone (h.work _ hmem), balanced_nil, balanced_nil⟩

/-- When everything has been processed, nothing is owed. -/
theorem RescheduleSound.settled (h : RescheduleSound cfg peer history leader s)
    (hsettled : s.Settled) (eventType : String)
    (htype : eventType = "WorkloadRescheduled" ∨ eventType = "ResourceDeclared") :
    Balanced eventType (recordedRows cfg peer history) s.appended [] := by
  obtain ⟨n, announce, declare, hn, hleader⟩ := h.leader
  obtain ⟨hwatching, happlied, -, htaken, hidle⟩ := hsettled n (List.mem_of_getElem? hn)
  have hahead : s.ahead n = n.log := by
    rw [Survivors.ahead, happlied, List.drop_length, List.append_nil]
  cases hstage : hleader.underway.stage with
  | waiting htrue _ _ => rw [hwatching] at htrue; cases htrue
  | announced _ hone _ =>
    rw [hahead, htaken, List.drop_length] at hone
    cases hone
  | working _ _ hwork _ => rw [hidle] at hwork; cases hwork
  | halfway _ _ hwork _ => rw [hidle] at hwork; cases hwork
  | finished _ _ _ =>
    rcases htype with rfl | rfl
    · exact hleader.underway.announced
    · exact hleader.underway.declared

/-- A declared workload has the IRI of its declaration. -/
theorem specOf_iri {api : ApiConfig} {decl : ResourceDeclaration} {d : Declared}
    {iri resourceType : String} {spec : WorkloadSpec} (hd : declared api decl = some d)
    (h : specOf api decl = some (iri, resourceType, spec)) : d.iri = iri := by
  cases decl with
  | container c =>
    cases h
    cases hd
    rfl
  | binary b =>
    cases h
    cases hd
    rfl
  | _ => cases h

/-- Every workload is owed one event of each type. -/
theorem Balanced.once {eventType : String} {recorded : List (String × String × Option String)}
    (h : Balanced eventType recorded added []) (hnodup : (recorded.map Prod.fst).Nodup)
    {row : String × String × Option String} (hrow : row ∈ recorded) :
    added.countP (isAbout eventType row.1) = 1 := by
  have hcount := h row.1
  rw [List.map_nil, List.count_nil, Nat.add_zero] at hcount
  rw [hcount]
  exact List.count_eq_one_of_mem hnodup (List.mem_map_of_mem hrow)

theorem RescheduleSound.rescheduledOnce (h : RescheduleSound cfg peer history leader s)
    {applied : String → Option ResourceDeclaration}
    (hredeclarable : Redeclarable cfg peer history applied) :
    RescheduledOnce cfg peer history applied s := by
  constructor
  · intro hsettled row hrow
    exact ⟨(h.settled hsettled _ (.inl rfl)).once hredeclarable.nodup hrow,
      (h.settled hsettled _ (.inr rfl)).once hredeclarable.nodup hrow⟩
  · intro e he htype decl iri resourceType spec hlast hspec
    obtain ⟨slot, correlationId, row, hrow, rfl⟩ := h.redeclared e he htype
    obtain ⟨hresource, hdefaults⟩ :=
      hredeclarable.defaults row hrow decl iri resourceType spec hlast hspec
    obtain ⟨_, _, _, _, d, _, hd, hiri, -, -⟩ := hlast
    have heq : row.1 = iri := hiri.symm.trans (specOf_iri hd hspec)
    rw [heq, hresource]
    exact (redeclared_unchanged_iff hspec).mpr hdefaults

end Runs

/-! ### A container on a failed node -/

/-- A container of the sample product. -/
def sampleContainer (image : String) : ResourceDeclaration :=
  .container ⟨"web", "shop", image, "default", none, none, [], [], [], []⟩

/-- Its IRI. -/
def sampleContainerIri : String := "https://picloud.local/products/shop/containers/web"

/-- The container in the log: it is declared, and moved to the node that fails. -/
def onFailedNode (image : String) : List EventEnvelope :=
  ((declared sampleApi (sampleContainer image)).map
    (declaredEvent sampleApi (sampleApply 1 []) ⟨1, 0, none⟩ (sampleContainer image))).toList ++
  [EventEnvelope.new 2 0 ⟨""⟩ "WorkloadMigrated"
    ⟨sampleContainerIri⟩ none 2 (.object [("workload_iri", .string sampleContainerIri),
      ("to_node_iri", .string "https://picloud.local/nodes/pi-2")])]

/-- The node that fails. -/
def failedPeer : PeerInfo := ⟨2, "pi-2", "10.0.0.2", 0⟩

/-- A survivor that has processed a log. -/
def upToDate (log : List EventEnvelope) : Survivor :=
  ⟨true, log, log.length, log.foldl (projected sampleNode.env) [], log.length,
    ⟨log.length, .idle, Backends.empty, []⟩⟩

/-- A step of the provisioner whose append fails on both routes, or takes one of them. -/
def survivorStep (i : ℕ) (id : Uuid) : Option AppendRoute → SurvivorAct
  | some route => .provision i ⟨⟨id, 0, none⟩, 0, none⟩ route
  | none => .provision i ⟨⟨id, 0, some (.internal "not the leader")⟩, 0, none⟩ .fallback

/-- A step of the provisioner is made this often. -/
def survivorSteps (i count : ℕ) (id : ℕ) (route : Option AppendRoute) : List SurvivorAct :=
  (List.range count).map fun k => survivorStep i (BitVec.ofNat 128 (id + k)) route

/-- The survivor that leads reschedules the container. -/
def leaderReschedules : List SurvivorAct :=
  .apply 0 :: survivorSteps 0 4 5 (some .raft) ++ List.replicate 2 (.apply 0) ++
    survivorSteps 0 3 9 (some .raft) ++ .apply 0 :: survivorSteps 0 1 12 (some .raft) ++
    List.replicate 4 (.project 0)

/-- The appends of the other survivor fail on both routes. -/
def oneReschedules : List SurvivorAct :=
  [.watch 0 ⟨3, 0, none⟩ 3 .raft, .watch 1 ⟨4, 0, some (.internal "not the leader")⟩ 4 .fallback] ++
    leaderReschedules ++ List.replicate 4 (.apply 1) ++ survivorSteps 1 8 13 none ++
    List.replicate 4 (.project 1)

/-- All survivors have processed their logs, and the container is announced and declared again this
often. -/
def RescheduledTimes (count : ℕ) (s : Survivors) : Prop :=
  s.Settled ∧
    s.appended.countP (isAbout "WorkloadRescheduled" sampleContainerIri) = count ∧
      s.appended.countP (isAbout "ResourceDeclared" sampleContainerIri) = count

instance (n : Survivor) (count : ℕ) : Decidable (n.watching = false ∧ n.applied = count ∧
    n.projected = n.log.length ∧ n.provisioner.taken = n.log.length ∧ n.provisioner.work = .idle) :=
  inferInstanceAs (Decidable (_ ∧ _ ∧ _ ∧ _ ∧ _))

instance (s : Survivors) : Decidable s.Settled := inferInstanceAs (Decidable (∀ n ∈ s.nodes, _))

instance (count : ℕ) (s : Survivors) : Decidable (RescheduledTimes count s) :=
  inferInstanceAs (Decidable (_ ∧ _ ∧ _))

instance (cfg : NodeConfig) (peer : PeerInfo) (history : List EventEnvelope) (leader : ℕ)
    (s : Survivors) (a : SurvivorAct) : Decidable (Led cfg peer history leader s a) :=
  match a with
  | .watch _ _ _ _ => inferInstanceAs (Decidable (_ ↔ _))
  | .apply _ | .project _ => inferInstanceAs (Decidable True)
  | .provision i _ _ =>
    inferInstanceAs (Decidable (∀ n ∈ s.nodes[i]?, (_ → (_ ↔ _)) ∧ (_ → _ → ∀ e ∈ n.log[_]?, _ → _)))

/-- Survivors that have processed a log, when a node is removed. -/
def survivorsOf (log : List EventEnvelope) (count : ℕ) : Survivors :=
  ⟨log, List.replicate count (upToDate log), []⟩

theorem justRemoved_survivorsOf (log : List EventEnvelope) (count : ℕ) :
    JustRemoved (survivorsOf log count) where
  watching n hn := by rw [List.eq_of_mem_replicate hn]; rfl
  applied n hn := by rw [List.eq_of_mem_replicate hn]; exact le_refl _
  taken n hn := by rw [List.eq_of_mem_replicate hn]; exact le_refl _
  work n hn := by rw [List.eq_of_mem_replicate hn]; rfl
  answered n hn := by
    have hahead : (survivorsOf log count).ahead (upToDate log) = log := by
      rw [Survivors.ahead]
      change log ++ log.drop log.length = log
      rw [List.drop_length, List.append_nil]
    rw [List.eq_of_mem_replicate hn, hahead]
    change ∀ e ∈ log.drop log.length, _
    rw [List.drop_length]
    exact List.forall_mem_nil _
  appended := rfl

theorem recordedRows_onFailedNode (image : String) (himage : image ∈ ["unknown", "nginx"]) :
    recordedRows sampleNode failedPeer (onFailedNode image) =
      [(sampleContainerIri, "Container", some "shop")] := by
  revert image
  decide +kernel

/-- Both survivors announce the failed node, the one that leads and the other in its own log, and both
answer every announcement that they see. -/
def bothReschedule : List SurvivorAct :=
  [.watch 0 ⟨3, 0, none⟩ 3 .raft, .watch 1 ⟨4, 0, none⟩ 4 .fallback] ++ leaderReschedules ++
    survivorSteps 1 4 13 (some .fallback) ++ List.replicate 4 (.apply 1) ++
    survivorSteps 1 17 17 (some .fallback) ++ List.replicate 12 (.project 1)

/-- The event declares the container again, and is provisioned with another image. -/
def LosesImage (e : EventEnvelope) : Prop :=
  isAbout "ResourceDeclared" sampleContainerIri e = true ∧
    provisionCalls (serverProvisioner sampleNode.env.iris sampleNode.isUrl) e =
      [.schedule ⟨sampleContainerIri⟩ (.container ⟨"unknown", "default", ⟨none, none⟩, [], [], [],
        none, .always, none⟩)]

instance (e : EventEnvelope) : Decidable (LosesImage e) := inferInstanceAs (Decidable (_ ∧ _))

end Picloud
