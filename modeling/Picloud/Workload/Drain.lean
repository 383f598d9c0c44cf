import Picloud.Domain.Event
import Picloud.Lib.Assoc
import Picloud.Lib.Steps
import Mathlib.Algebra.Order.Group.Multiset

/-!
# Draining nodes

Reference: `InMemoryDrainCoordinator` of `picloud-workload/src/implementation.rs`.

The clock is a parameter: a drain comes with the first round of its loop that finds the deadline
passed, if there is one, and with the milliseconds it reports.
-/

namespace Picloud

open Lib

/-- `NodeDrainState`. -/
inductive NodeDrainState where
  | active
  | cordoned
  | draining
  | drained
deriving DecidableEq

/-- The `Debug` form of a state. -/
def NodeDrainState.debug : NodeDrainState → String
  | .active => "Active"
  | .cordoned => "Cordoned"
  | .draining => "Draining"
  | .drained => "Drained"

/-- `NodeWorkloadInfo`. -/
structure NodeWorkloadInfo where
  workloadIri : ResourceIri
  workloadType : String
deriving DecidableEq

/-- `MigrationRecord`, with the IRI and the type of the workload together. -/
structure MigrationRecord where
  workload : NodeWorkloadInfo
  fromNodeId : Uuid
  toNodeId : Uuid
deriving DecidableEq

/-- `DrainResult`. -/
structure DrainResult where
  nodeId : Uuid
  workloadsMigrated : ℕ
  durationMs : ℕ
  success : Bool
  error : Option String
deriving DecidableEq

/-- `InMemoryDrainCoordinator`. -/
structure DrainCoordinator where
  drainStates : Assoc Uuid NodeDrainState
  nodeWorkloads : Assoc Uuid (List NodeWorkloadInfo)
  availableNodes : List Uuid
  migrations : List MigrationRecord
deriving DecidableEq

namespace DrainCoordinator

/-- `InMemoryDrainCoordinator::new`. -/
def new : DrainCoordinator := ⟨[], [], [], []⟩

variable (s : DrainCoordinator)

/-- `drain_state`. -/
def drainState (nodeId : Uuid) : NodeDrainState := (Assoc.get s.drainStates nodeId).getD .active

/-- `node_workloads`. -/
def workloadsOn (nodeId : Uuid) : List NodeWorkloadInfo := (Assoc.get s.nodeWorkloads nodeId).getD []

/-- `states.insert(node_id, state)`. -/
def setState (nodeId : Uuid) (state : NodeDrainState) : DrainCoordinator :=
  { s with drainStates := Assoc.set s.drainStates nodeId state }

/-- `register_workload`. -/
def registerWorkload (nodeId : Uuid) (workload : NodeWorkloadInfo) : DrainCoordinator :=
  { s with nodeWorkloads := Assoc.set s.nodeWorkloads nodeId (s.workloadsOn nodeId ++ [workload]) }

/-- `set_available_nodes`. -/
def setAvailableNodes (nodes : List Uuid) : DrainCoordinator := { s with availableNodes := nodes }

/-- `cordon`; an error is the text of an `Internal` one. -/
def cordon (nodeId : Uuid) : Except String Unit × DrainCoordinator :=
  match Assoc.get s.drainStates nodeId with
  | some .active | none => (.ok (), s.setState nodeId .cordoned)
  | some state => (.error ("Cannot cordon node in state " ++ state.debug), s)

/-- `uncordon`. -/
def uncordon (nodeId : Uuid) : Except String Unit × DrainCoordinator :=
  match Assoc.get s.drainStates nodeId with
  | some .cordoned | some .drained | none => (.ok (), s.setState nodeId .active)
  | some .draining => (.error "Cannot uncordon a node that is currently draining", s)
  | some state => (.error ("Cannot uncordon node in state " ++ state.debug), s)

/-- `log.push(..)`. -/
def recordMigration (workload : NodeWorkloadInfo) (fromNodeId toNodeId : Uuid) : DrainCoordinator :=
  { s with migrations := s.migrations ++ [⟨workload, fromNodeId, toNodeId⟩] }

/-- `wl.remove(&node_id)`. -/
def removeWorkloads (nodeId : Uuid) : DrainCoordinator :=
  { s with nodeWorkloads := Assoc.erase s.nodeWorkloads nodeId }

/-- `target_nodes[i % target_nodes.len()]`, for a list that is not empty. -/
def targetAt (targetNodes : List Uuid) (i : ℕ) : Uuid :=
  targetNodes.getD (i % targetNodes.length) 0

/-- The loop of `drain`, from a round on: the state, the number of workloads that have been migrated,
and whether the deadline has passed. -/
def migrateAll (nodeId : Uuid) (targetNodes : List Uuid) (timeoutAt : Option ℕ) :
    ℕ → List NodeWorkloadInfo → DrainCoordinator → DrainCoordinator × ℕ × Bool
  | i, [], s => (s, i, false)
  | i, workload :: rest, s =>
    if timeoutAt = some i then (s, i, true)
    else
      let target := targetAt targetNodes i
      migrateAll nodeId targetNodes timeoutAt (i + 1) rest
        ((s.recordMigration workload nodeId target).registerWorkload target workload)

/-- `drain`. -/
def drain (nodeId : Uuid) (timeoutAt : Option ℕ) (durationMs : ℕ) : DrainResult × DrainCoordinator :=
  let s := s.setState nodeId .draining
  let workloads := s.workloadsOn nodeId
  let workloadCount := workloads.length
  let targetNodes := s.availableNodes
  if targetNodes = [] ∧ workloadCount > 0 then
    (⟨nodeId, 0, durationMs, false, some "No available target nodes for workload migration"⟩,
      s.setState nodeId .cordoned)
  else
    match migrateAll nodeId targetNodes timeoutAt 0 workloads s with
    | (s, migrated, true) =>
      (⟨nodeId, migrated, durationMs, false, some ("Drain timeout: migrated " ++ toString migrated ++
        "/" ++ toString workloadCount ++ " workloads")⟩, s.setState nodeId .cordoned)
    | (s, migrated, false) =>
      (⟨nodeId, migrated, durationMs, true, none⟩,
        (s.removeWorkloads nodeId).setState nodeId .drained)

/-! ## The workloads of a node -/

theorem workloadsOn_registerWorkload_self (s : DrainCoordinator) (nodeId : Uuid)
    (workload : NodeWorkloadInfo) :
    (s.registerWorkload nodeId workload).workloadsOn nodeId =
      s.workloadsOn nodeId ++ [workload] := by
  rw [workloadsOn, registerWorkload, Assoc.get_set_self]
  rfl

theorem workloadsOn_registerWorkload_of_ne (s : DrainCoordinator) {nodeId other : Uuid}
    (workload : NodeWorkloadInfo) (h : other ≠ nodeId) :
    (s.registerWorkload nodeId workload).workloadsOn other = s.workloadsOn other := by
  rw [workloadsOn, registerWorkload, Assoc.get_set_of_ne _ _ h]
  rfl

theorem workloadsOn_removeWorkloads_self (s : DrainCoordinator) (nodeId : Uuid) :
    (s.removeWorkloads nodeId).workloadsOn nodeId = [] := by
  rw [workloadsOn, removeWorkloads, Assoc.get_erase_self]
  rfl

theorem workloadsOn_removeWorkloads_of_ne (s : DrainCoordinator) {nodeId other : Uuid}
    (h : other ≠ nodeId) : (s.removeWorkloads nodeId).workloadsOn other = s.workloadsOn other := by
  rw [workloadsOn, removeWorkloads, Assoc.get_erase_of_ne _ h]
  rfl

end DrainCoordinator

/-! ## Runs -/

/-- The calls. -/
inductive DrainAction where
  | registerWorkload (nodeId : Uuid) (workload : NodeWorkloadInfo)
  | setAvailableNodes (nodes : List Uuid)
  | cordon (nodeId : Uuid)
  | uncordon (nodeId : Uuid)
  | drain (nodeId : Uuid) (timeoutAt : Option ℕ) (durationMs : ℕ)
deriving DecidableEq

namespace DrainCoordinator

/-- The state after a call. -/
def step (s : DrainCoordinator) : DrainAction → Option DrainCoordinator
  | .registerWorkload nodeId workload => some (s.registerWorkload nodeId workload)
  | .setAvailableNodes nodes => some (s.setAvailableNodes nodes)
  | .cordon nodeId => some (s.cordon nodeId).2
  | .uncordon nodeId => some (s.uncordon nodeId).2
  | .drain nodeId timeoutAt durationMs => some (s.drain nodeId timeoutAt durationMs).2

end DrainCoordinator

end Picloud
