import Picloud.Lib.TreeFaults
import Picloud.Storage.Volumes

/-!
# Events of snapshots

Reference: `EventEmittingSnapshotManager` of `picloud-storage/src/event_emitting.rs`, over the
`LocalSnapshotManager`. Here an operation of the file system that fails is named by what it does: the copy
of a volume stops at one of its steps, a removal keeps a part of the directory, a look-up finds nothing, a
directory cannot be read, an entry of it cannot be looked at.
-/

namespace Picloud

open Lib

/-! ## Failures -/

/-- What fails while a snapshot is created. -/
inductive CreateFault where
  | volumeUnseen
  /-- The path of a snapshot that is there is not seen when it is tried. -/
  | pathUnseen (tries : ℕ)
  | copy (message : String) (stop : CopyStop Content)

/-- What fails while a directory is listed. -/
inductive ListFault where
  | unseen
  | unreadable (message : String)
  | entry (name : String)

/-- What fails while a snapshot is deleted. -/
inductive DeleteFault where
  | unseen
  | removal (message : String) (kept : Path → Bool)

/-- What fails while the retention is enforced: one of the two listings, or a deletion after others. -/
inductive RetentionFault where
  | listing (fault : ListFault)
  | innerListing (fault : ListFault)
  | deletion (done : ℕ) (fault : DeleteFault)

/-! ## The snapshot manager -/

/-- `PiCloudError` as a text. -/
def StorageError.text : StorageError → String
  | .insufficientCapacity requestedGb availableGb => "Insufficient storage capacity: requested " ++
      toString requestedGb ++ "GB, available " ++ toString availableGb ++ "GB"
  | .resourceNotFound iri => "Resource not found: " ++ iri
  | .internal message => "Internal error: " ++ message

namespace StorageState

variable (env : StorageEnv) (s : StorageState) (volumeIri : ResourceIri)

/-- The snapshot directory with a name. -/
def snapshotPath (name : String) : Path := env.snapshotDir volumeIri ++ [name]

/-- The directory for a snapshot: the first one that is not seen. -/
def freshPath (tries : ℕ) (atTime : ℤ) : ℤ × Path :=
  let ts := freshTs env (fun name => s.files.isPresent (env.snapshotDir volumeIri ++ [name])) tries atTime
  (ts, snapshotPath env volumeIri (env.formatTs ts))

/-- `create_snapshot_at`. -/
def createSnapshotWith (atTime : ℤ) :
    Option CreateFault → Option (Except StorageError SnapshotInfo × StorageState)
  | none => s.createSnapshotAt env volumeIri atTime none
  | some .volumeUnseen => some (.error (.resourceNotFound volumeIri.value), s)
  | some (.pathUnseen tries) =>
    if s.files.isPresent (env.volumeDir volumeIri) then
      let (ts, path) := s.freshPath env volumeIri tries atTime
      (s.files.copyTree (env.volumeDir volumeIri) path).map fun files =>
        (.ok ⟨volumeIri, path, files.treeSize contentSize path, ts⟩, { s with files := files })
    else some (.error (.resourceNotFound volumeIri.value), s)
  | some (.copy message stop) =>
    if s.files.isPresent (env.volumeDir volumeIri) then
      let (_, path) := s.freshPath env volumeIri (s.files.length + 1) atTime
      (s.files.copyTreeUntil (env.volumeDir volumeIri) path stop).map fun files =>
        (.error (.internal ("Failed to create snapshot for " ++ volumeName volumeIri ++ ": " ++ message)),
          { s with files := files })
    else some (.error (.resourceNotFound volumeIri.value), s)

/-- `list_snapshots`. An entry that cannot be looked at is left out; the sort keeps the order of the others. -/
def listSnapshotsWith : Option ListFault → Except StorageError (List SnapshotInfo)
  | none => s.listSnapshots env volumeIri
  | some .unseen => .ok []
  | some (.unreadable message) =>
    if s.files.isPresent (env.snapshotDir volumeIri) then
      .error (.internal ("Failed to read snapshot dir: " ++ message))
    else .ok []
  | some (.entry name) => (s.listSnapshots env volumeIri).map fun snapshots =>
      snapshots.filter fun snapshot => snapshot.snapshotPath ≠ snapshotPath env volumeIri name

/-- `delete_snapshot` of the directory that a text leads to. A removal that fails has not yet removed the
directory itself. -/
def deleteSnapshotWith (text : String) (path : Path) :
    Option DeleteFault → Option (Except StorageError Unit × StorageState)
  | none => s.deleteSnapshot volumeIri path none
  | some .unseen => some (.error (missingSnapshot text volumeIri), s)
  | some (.removal message kept) =>
    if s.files.isPresent path then
      some (.error (.internal ("Failed to delete snapshot: " ++ message)),
        { s with files := s.files.filter fun e => ¬ path <+: e.1 ∨ e.1 = path ∨ kept e.1 })
    else some (.error (missingSnapshot text volumeIri), s)

/-- Delete snapshots one after the other, up to the first error. -/
def deleteSnapshotsWith : StorageState → List SnapshotInfo → Option (ℕ × DeleteFault) →
    Option (Except StorageError Unit × StorageState)
  | s, [], _ => some (.ok (), s)
  | s, snapshot :: rest, fault =>
    let (now, later) := match fault with
      | none => (none, none)
      | some (0, fault) => (some fault, none)
      | some (done + 1, fault) => (none, some (done, fault))
    (s.deleteSnapshotWith volumeIri (StorageEnv.displayPath snapshot.snapshotPath) snapshot.snapshotPath
      now).bind fun
      | (.error e, s) => some (.error e, s)
      | (.ok (), s) => deleteSnapshotsWith s rest later

/-- `enforce_retention`, from the listing on. -/
def enforceRetentionWith (snapshots : List SnapshotInfo) (daily : ℕ) (fault : Option (ℕ × DeleteFault)) :
    Option (Except StorageError ℕ × StorageState) :=
  if snapshots.isEmpty then some (.ok 0, s)
  else if daily = 0 ∨ snapshots.length ≤ daily then some (.ok 0, s)
  else
    let toDelete := (newestFirst snapshots).drop daily
    (deleteSnapshotsWith volumeIri s toDelete fault).map fun
      | (.error e, s) => (.error e, s)
      | (.ok (), s) => (.ok toDelete.length, s)

end StorageState

/-! ## The manager that emits events -/

/-- The events, with their payloads. -/
inductive SnapshotEvent where
  | created (volumeIri : ResourceIri) (snapshotPath : String) (sizeBytes : ℕ) (createdAt : ℤ)
  | failed (volumeIri : ResourceIri) (reason : String)
  | deleted (volumeIri : ResourceIri) (snapshotPath : String)
deriving DecidableEq

/-- The node, and the events appended to the log. -/
structure EmittingManager where
  storage : StorageState
  events : List SnapshotEvent
deriving DecidableEq

namespace EmittingManager

open StorageEnv (displayPath)

variable (env : StorageEnv) (m : EmittingManager) (volumeIri : ResourceIri)

/-- `create_snapshot`. -/
def createSnapshot (atTime : ℤ) (fault : Option CreateFault) :
    Option (Except StorageError SnapshotInfo × EmittingManager) :=
  (m.storage.createSnapshotWith env volumeIri atTime fault).map fun
    | (.ok info, storage) => (.ok info, ⟨storage, m.events ++
        [.created volumeIri (displayPath info.snapshotPath) info.sizeBytes info.createdAt]⟩)
    | (.error e, storage) => (.error e, ⟨storage, m.events ++ [.failed volumeIri e.text]⟩)

/-- `delete_snapshot`; a relative path starts at the working directory. -/
def deleteSnapshot (cwd : Path) (text : String) (fault : Option DeleteFault) :
    Option (Except StorageError Unit × EmittingManager) :=
  match StorageEnv.follow m.storage.files cwd text with
  | none => some (.error (StorageState.missingSnapshot text volumeIri), m)
  | some path => (m.storage.deleteSnapshotWith volumeIri text path fault).map fun
    | (.ok (), storage) => (.ok (), ⟨storage, m.events ++ [.deleted volumeIri text]⟩)
    | (.error e, storage) => (.error e, { m with storage := storage })

/-- The snapshots that are to go. -/
def retired (daily : ℕ) (snapshots : List SnapshotInfo) : List SnapshotInfo :=
  if 0 < daily ∧ daily < snapshots.length then (StorageState.newestFirst snapshots).drop daily else []

/-- `enforce_retention`: the snapshots are listed before, and once more by the manager below. -/
def enforceRetentionWith (daily : ℕ) (listing innerListing : Option ListFault)
    (deletion : Option (ℕ × DeleteFault)) : Option (Except StorageError ℕ × EmittingManager) :=
  match m.storage.listSnapshotsWith env volumeIri listing with
  | .error e => some (.error e, m)
  | .ok snapshots =>
    let toDelete := retired daily snapshots
    match m.storage.listSnapshotsWith env volumeIri innerListing with
    | .error e => some (.error e, m)
    | .ok snapshots => (m.storage.enforceRetentionWith volumeIri snapshots daily deletion).map fun
      | (.error e, storage) => (.error e, { m with storage := storage })
      | (.ok deleted, storage) => (.ok deleted, ⟨storage, m.events ++
          (toDelete.map fun snapshot => displayPath snapshot.snapshotPath).map (.deleted volumeIri)⟩)

/-- `enforce_retention`, with one failure at most. -/
def enforceRetention (daily : ℕ) :
    Option RetentionFault → Option (Except StorageError ℕ × EmittingManager)
  | none => m.enforceRetentionWith env volumeIri daily none none none
  | some (.listing fault) => m.enforceRetentionWith env volumeIri daily (some fault) none none
  | some (.innerListing fault) => m.enforceRetentionWith env volumeIri daily none (some fault) none
  | some (.deletion done fault) =>
    m.enforceRetentionWith env volumeIri daily none none (some (done, fault))

end EmittingManager

/-! ## Runs -/

/-- The calls, with what fails in them. -/
inductive SnapshotAction where
  | createSnapshot (volumeIri : ResourceIri) (atTime : ℤ) (fault : Option CreateFault)
  | deleteSnapshot (volumeIri : ResourceIri) (text : String) (fault : Option DeleteFault)
  | enforceRetention (volumeIri : ResourceIri) (daily : ℕ) (fault : Option RetentionFault)

/-- The volume of a call. -/
def SnapshotAction.volumeIri : SnapshotAction → ResourceIri
  | .createSnapshot volumeIri .. | .deleteSnapshot volumeIri .. | .enforceRetention volumeIri .. => volumeIri

/-- What an event says about the snapshots of a volume. -/
def applySnapshotEvent (volumeIri : ResourceIri) (paths : List String) : SnapshotEvent → List String
  | .created w path _ _ => if w = volumeIri then path :: paths else paths
  | .failed .. => paths
  | .deleted w path => if w = volumeIri then paths.filter (· ≠ path) else paths

/-- The snapshots of a volume according to the events. -/
def replaySnapshots (volumeIri : ResourceIri) (events : List SnapshotEvent) : List String :=
  events.foldl (applySnapshotEvent volumeIri) []

namespace EmittingManager

open StorageEnv (displayPath)

variable (env : StorageEnv) (cwd : Path)

/-- The state after a call. -/
def step (m : EmittingManager) : SnapshotAction → Option EmittingManager
  | .createSnapshot iri atTime fault => (m.createSnapshot env iri atTime fault).map Prod.snd
  | .deleteSnapshot iri text fault => (m.deleteSnapshot iri cwd text fault).map Prod.snd
  | .enforceRetention iri daily fault => (m.enforceRetention env iri daily fault).map Prod.snd

/-- The snapshots of the volume that are listed are those that the events tell. -/
def MirrorsSnapshots (m : EmittingManager) (volumeIri : ResourceIri) : Prop :=
  ∃ snapshots, m.storage.listSnapshots env volumeIri = .ok snapshots ∧
    ∀ text, text ∈ replaySnapshots volumeIri m.events ↔
      ∃ snapshot ∈ snapshots, displayPath snapshot.snapshotPath = text

end EmittingManager

end Picloud
