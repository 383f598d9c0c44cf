import Picloud.Rdf.NodeEvents
import Picloud.Rdf.ProductEvents
import Picloud.Rdf.StorageEvents

/-!
# The projector

Reference: `OxigraphProjector` of `picloud-rdf/src/implementation.rs`: the dispatch of `project`,
`replay` and the cursor.

The cursor counts the events whose projection succeeded. `replay` stops at the first event that
fails, and writes the cursor into the graph only when it has come to its end.
-/

namespace Picloud

open Lib

/-! ## Dispatch -/

/-- The event types that `project` knows, in its order, with their handlers. The types without a
projection of their own are listed with the empty script. -/
def handlers (env : ProjectorEnv) : List (String × (EventEnvelope → Script)) :=
  [("NodeJoined", projectNodeJoined),
    ("NodeLeft", projectNodeLeft),
    ("LeaderElected", projectLeaderElected env),
    ("ResourceDeclared", projectResourceDeclared env),
    ("ResourceProvisioning", projectResourceProvisioning env),
    ("ResourceReady", projectResourceReady env),
    ("ResourceFailed", projectResourceFailed env),
    ("ResourceDeleted", projectResourceDeleted),
    ("IdentityCreated", projectIdentityCreated env),
    ("ProductDeployed", projectProductDeployed env),
    ("ProductDeleted", projectProductDeleted env),
    ("ProductUpgradeStarted", projectProductUpgradeStarted),
    ("ProductUpgradeCompleted", projectProductUpgradeCompleted),
    ("ProductUpgradeAborted", projectProductUpgradeAborted),
    ("MetricRecorded", projectMetricRecorded env),
    ("TagAdded", projectTagAdded env),
    ("TagRemoved", projectTagRemoved),
    ("ConfigChanged", projectConfigChanged env),
    ("FeatureFlagChanged", projectFeatureFlagChanged env),
    ("GroupMembershipChanged", projectGroupMembershipChanged),
    ("AlertFired", projectAlertFired env),
    ("AlertResolved", projectAlertResolved env),
    ("ReplayStarted", fun _ => []), ("ReplayProgress", fun _ => []),
    ("ReplayCompleted", fun _ => []), ("ReplayFailed", fun _ => []),
    ("SnapshotCreated", projectSnapshotCreated env),
    ("SnapshotDeleted", projectSnapshotDeleted env),
    ("SnapshotFailed", fun _ => []),
    ("RestoreCompleted", projectRestoreCompleted env),
    ("RestoreRequested", fun _ => []), ("RestoreFailed", fun _ => []),
    ("BackupCompleted", projectBackupCompleted env),
    ("BackupFailed", projectBackupFailed env),
    ("BackupStarted", fun _ => []),
    ("ImagePushed", projectImagePushed env),
    ("ImageDeleted", projectImageDeleted env),
    ("ImageTagUpdated", projectImageTagUpdated env),
    ("RegistryGCStarted", projectRegistryGcStarted env),
    ("RegistryGCCompleted", projectRegistryGcCompleted env),
    ("RegistryAuthFailed", fun _ => []),
    ("CapabilityDeclared", projectCapabilityDeclared),
    ("CapabilityReady", projectCapabilityReady env),
    ("CapabilityImplementorAdded", projectCapabilityImplementorAdded),
    ("CapabilityImplementorRemoved", projectCapabilityImplementorRemoved env),
    ("CapabilityConsumerAdded", projectCapabilityConsumerAdded),
    ("CapabilityDeleted", projectCapabilityDeleted),
    ("CapabilityUnfulfilled", fun _ => []), ("CapabilityRoutingFailed", fun _ => []),
    ("OntologyLoaded", projectOntologyLoaded env),
    ("DataDomainDeclared", projectDataDomainDeclared),
    ("DataDomainUpdated", projectDataDomainUpdated),
    ("DataDomainDeleted", projectDataDomainDeleted),
    ("DataProductDeclared", projectDataProductDeclared env),
    ("DataProductUpdated", projectDataProductUpdated env),
    ("DataProductRefreshed", projectDataProductRefreshed env),
    ("DataProductDeleted", projectDataProductDeleted),
    ("DataProductSLOBreached", projectDataProductSloBreached),
    ("DataProductSLORestored", projectDataProductSloRestored),
    ("DataProductReady", fun _ => []),
    ("ProductEventAppended", projectProductEventAppended env),
    ("TelemetryAggregated", fun _ => []),
    ("NodeCordoned", projectNodeCordoned),
    ("NodeUncordoned", projectNodeUncordoned),
    ("NodeDrainStarted", projectNodeDrainStarted),
    ("NodeDrainCompleted", projectNodeDrainCompleted),
    ("NodeDrainFailed", fun _ => []),
    ("WorkloadMigrated", projectWorkloadMigrated),
    ("LogCompactionCompleted", fun _ => []),
    ("SelfMonitoringCheckCompleted", projectSelfMonitoring env)]

/-- What `project` does for an event; an unknown type is passed over. -/
def script (env : ProjectorEnv) (event : EventEnvelope) : Script :=
  match (handlers env).lookup event.eventType with
  | some handler => handler event
  | none => []

/-- The projection of one event on the store. What was inserted before an error stays. -/
def projectStore (env : ProjectorEnv) (s : Store) (event : EventEnvelope) :
    Except PiCloudError Unit × Store :=
  match runScript env.checks s (script env event) with
  | (.ok (), s') => (.ok (), s')
  | (.error e, s') => (.error (.internal e), s')

/-- The store that one event leaves, whatever becomes of it. -/
def projected (env : ProjectorEnv) (s : Store) (event : EventEnvelope) : Store :=
  (projectStore env s event).2

theorem projected_eq (env : ProjectorEnv) (s : Store) (event : EventEnvelope) :
    projected env s event = (runScript env.checks s (script env event)).2 := by
  unfold projected projectStore
  split <;> simp [*]

variable {env : ProjectorEnv}

/-- What holds of the scripts of the handlers for an event holds of the script of the event. -/
theorem script_induction {event : EventEnvelope} {P : Script → Prop} (hnil : P [])
    (h : ∀ p ∈ handlers env, p.1 = event.eventType → P (p.2 event)) :
    P (script env event) := by
  unfold script
  cases hl : (handlers env).lookup event.eventType with
  | none => exact hnil
  | some handler =>
    obtain ⟨l₁, l₂, heq, -⟩ := List.lookup_eq_some_iff.mp hl
    exact h (event.eventType, handler) (heq ▸ by simp) rfl

/-! ## Handlers that look at the store -/

/-- The event types whose handlers look at the store. -/
def storeReaders : List String :=
  ["LeaderElected", "ProductDeleted", "SnapshotCreated", "ImageDeleted", "RegistryGCCompleted",
    "OntologyLoaded", "SelfMonitoringCheckCompleted"]

theorem blind_projectMetricRecorded (env : ProjectorEnv) (event : EventEnvelope) :
    Blind (projectMetricRecorded env event) := by
  unfold projectMetricRecorded
  split
  · exact blind_nil
  · exact blind_ops _

theorem blind_projectConfigChanged (env : ProjectorEnv) (event : EventEnvelope) :
    Blind (projectConfigChanged env event) := by
  unfold projectConfigChanged
  split <;> exact blind_ops _

theorem blind_projectFeatureFlagChanged (env : ProjectorEnv) (event : EventEnvelope) :
    Blind (projectFeatureFlagChanged env event) := by
  unfold projectFeatureFlagChanged
  split <;> exact blind_ops _

theorem blind_projectGroupMembershipChanged (event : EventEnvelope) :
    Blind (projectGroupMembershipChanged event) := by
  unfold projectGroupMembershipChanged
  dsimp only
  split
  · exact blind_ops _
  · split
    · exact blind_ops _
    · exact blind_nil

theorem blind_projectCapabilityImplementorRemoved (env : ProjectorEnv) (event : EventEnvelope) :
    Blind (projectCapabilityImplementorRemoved env event) := by
  unfold projectCapabilityImplementorRemoved
  dsimp only
  split
  · exact blind_ops _
  · exact blind_nil

theorem blind_projectProductEventAppended (env : ProjectorEnv) (event : EventEnvelope) :
    Blind (projectProductEventAppended env event) := by
  unfold projectProductEventAppended
  split <;> exact blind_ops _

/-- All other handlers are fixed lists of operations. -/
theorem blind_handlers (env : ProjectorEnv) :
    ∀ p ∈ handlers env, p.1 ∉ storeReaders → ∀ event, Blind (p.2 event) := by
  unfold handlers
  simp only [List.forall_mem_cons]
  and_intros
  all_goals first
    | exact fun h => absurd (by decide) h
    | exact fun _ _ => blind_nil
    | exact fun _ _ => blind_ops _
    | skip
  · exact fun _ => blind_projectMetricRecorded env
  · exact fun _ => blind_projectConfigChanged env
  · exact fun _ => blind_projectFeatureFlagChanged env
  · exact fun _ => blind_projectGroupMembershipChanged
  · exact fun _ => blind_projectCapabilityImplementorRemoved env
  · exact fun _ => blind_projectProductEventAppended env
  · simp

theorem blind_script {event : EventEnvelope} (h : event.eventType ∉ storeReaders) :
    Blind (script env event) :=
  script_induction blind_nil fun p hp heq => blind_handlers env p hp (heq ▸ h) event

/-! ### The scripts of the handlers that look at the store -/

section Readers

variable {env : ProjectorEnv} {event : EventEnvelope}

theorem script_leaderElected (h : event.eventType = "LeaderElected") :
    script env event = projectLeaderElected env event := by
  rw [script, h]
  rfl

theorem script_productDeleted (h : event.eventType = "ProductDeleted") :
    script env event = projectProductDeleted env event := by
  rw [script, h]
  rfl

theorem script_snapshotCreated (h : event.eventType = "SnapshotCreated") :
    script env event = projectSnapshotCreated env event := by
  rw [script, h]
  rfl

theorem script_imageDeleted (h : event.eventType = "ImageDeleted") :
    script env event = projectImageDeleted env event := by
  rw [script, h]
  rfl

theorem script_registryGcCompleted (h : event.eventType = "RegistryGCCompleted") :
    script env event = projectRegistryGcCompleted env event := by
  rw [script, h]
  rfl

theorem script_ontologyLoaded (h : event.eventType = "OntologyLoaded") :
    script env event = projectOntologyLoaded env event := by
  rw [script, h]
  rfl

theorem script_selfMonitoring (h : event.eventType = "SelfMonitoringCheckCompleted") :
    script env event = projectSelfMonitoring env event := by
  rw [script, h]
  rfl

theorem mem_storeReaders {name : String} (h : name ∈ storeReaders) :
    name = "LeaderElected" ∨ name = "ProductDeleted" ∨ name = "SnapshotCreated" ∨
      name = "ImageDeleted" ∨ name = "RegistryGCCompleted" ∨ name = "OntologyLoaded" ∨
      name = "SelfMonitoringCheckCompleted" := by
  simpa [storeReaders] using h

/-- Only a loaded ontology transforms the store as a whole, by the two materialisations. -/
theorem update_cases {f : Store → Store} (h : Step.update f ∈ script env event) :
    f = materialiseRdfsSubclass ∨ f = materialiseOwlTransitiveProperty := by
  by_cases hr : event.eventType ∈ storeReaders
  · rcases mem_storeReaders hr with hr | hr | hr | hr | hr | hr | hr
    · simp [script_leaderElected hr, projectLeaderElected] at h
    · simp [script_productDeleted hr, projectProductDeleted] at h
    · simp [script_snapshotCreated hr, projectSnapshotCreated] at h
    · simp [script_imageDeleted hr, projectImageDeleted] at h
    · simp [script_registryGcCompleted hr, projectRegistryGcCompleted] at h
    · rw [script_ontologyLoaded hr, projectOntologyLoaded] at h
      split at h
      · simp at h
      · simpa [loadOntology, or_comm, or_assoc, or_left_comm] using h
    · simp [script_selfMonitoring hr, projectSelfMonitoring] at h
  · simpa [Step.isBlind] using blind_script hr _ h

/-- A property of quads that the insertions of a handler have, and that inference keeps, is kept by
the handler. -/
theorem keeps_of_inserts {P : Quad → Prop} (hinfer : KeptByInference P)
    (h : ∀ step ∈ script env event, ∀ q, step.Inserts q → P q) :
    ∀ step ∈ script env event, step.Keeps P := by
  intro step hstep
  cases step with
  | ops l => exact h _ hstep
  | read f => exact fun s _ q hq => h _ hstep q ⟨s, hq⟩
  | update f =>
    rcases update_cases hstep with rfl | rfl
    · exact fun s hs => hinfer.materialiseRdfsSubclass hs
    · exact fun s hs => hinfer.materialiseOwl hs

end Readers

/-! ## The projector and its cursor -/

/-- `OxigraphProjector`. -/
structure Projector where
  store : Store
  lastProjectedOffset : ℕ
deriving DecidableEq

namespace Projector

/-- `OxigraphProjector::new`. -/
def new : Projector := ⟨[], 0⟩

variable (env : ProjectorEnv)

/-- `project`: the cursor, an `AtomicUsize`, advances when the projection succeeds. -/
def project (p : Projector) (event : EventEnvelope) : Except PiCloudError Unit × Projector :=
  match projectStore env p.store event with
  | (.ok (), s) => (.ok (), ⟨s, (p.lastProjectedOffset + 1) % 2 ^ 64⟩)
  | (.error e, s) => (.error e, ⟨s, p.lastProjectedOffset⟩)

/-- The subject of the metadata triple. -/
def metaSubject : String := "https://picloud.local/meta/projector"

/-- The metadata triple that holds the cursor. -/
def cursorPattern : Pattern := valuesOf metaSubject (pc "lastProjectedOffset") (some .default)

/-- The operations of `persist_cursor`. -/
def persistCursorOps (cursor : ℕ) : List Op :=
  [.named "invalid meta IRI: " metaSubject,
    .named "invalid meta predicate: " (pc "lastProjectedOffset"), .del cursorPattern] ++
    insertTriple metaSubject (pc "lastProjectedOffset") (simple (toString cursor))

/-- `persist_cursor`. -/
def persistCursor (p : Projector) : Except PiCloudError Unit × Projector :=
  match runOps env.checks p.store (persistCursorOps p.lastProjectedOffset) with
  | (.ok (), s) => (.ok (), { p with store := s })
  | (.error e, s) => (.error (.internal e), { p with store := s })

/-- `read_cursor_from_store`: the first answer decides, and it has to be a `usize`. -/
def readCursor (s : Store) : Option ℕ :=
  ((env.scan (s.quadsForPattern cursorPattern)).find? fun q => match q.object with
    | .literal _ => true
    | _ => false).bind fun q => (parseNat (termText q.object)).filter (· < 2 ^ 64)

/-- The loop of `replay`: it ends at the first event that fails. -/
def replayLoop (p : Projector) : List EventEnvelope → Except PiCloudError Unit × Projector
  | [] => (.ok (), p)
  | event :: events =>
    match p.project env event with
    | (.ok (), p') => replayLoop p' events
    | (.error e, p') => (.error e, p')

/-- `replay`. -/
def replay (p : Projector) (events : List EventEnvelope) : Except PiCloudError ℕ × Projector :=
  match p.replayLoop env events with
  | (.error e, p') => (.error e, p')
  | (.ok (), p') =>
    if events = [] then (.ok 0, p')
    else match p'.persistCursor env with
      | (.ok (), p'') => (.ok events.length, p'')
      | (.error e, p'') => (.error e, p'')

/-- Projecting events one by one, whatever becomes of each of them: what the live loop does. -/
def projectEach (p : Projector) (events : List EventEnvelope) : Projector :=
  events.foldl (fun p event => (p.project env event).2) p

variable {env}

theorem store_project (p : Projector) (event : EventEnvelope) :
    (p.project env event).2.store = projected env p.store event := by
  unfold project projected
  split <;> simp [*]

theorem store_projectEach (p : Projector) (events : List EventEnvelope) :
    (p.projectEach env events).store = events.foldl (projected env) p.store := by
  induction events generalizing p with
  | nil => rfl
  | cons event events ih =>
    rw [projectEach, List.foldl_cons, List.foldl_cons, ← store_project]
    exact ih _

end Projector

/-- A property of quads that the insertions of the handlers have, and that inference keeps, holds
after the projection of any events. -/
theorem forall_mem_foldl_projected {P : Quad → Prop} (hinfer : KeptByInference P)
    {events : List EventEnvelope}
    (h : ∀ event ∈ events, ∀ step ∈ script env event, ∀ q, step.Inserts q → P q) {s : Store}
    (hs : ∀ q ∈ s, P q) : ∀ q ∈ events.foldl (projected env) s, P q := by
  induction events generalizing s with
  | nil => exact hs
  | cons event events ih =>
    refine ih (fun e he => h e (List.mem_cons_of_mem event he)) ?_
    rw [projected_eq]
    exact forall_mem_runScript (keeps_of_inserts hinfer (h event List.mem_cons_self)) hs

end Picloud
