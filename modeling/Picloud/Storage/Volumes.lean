import Picloud.Domain.Payload
import Picloud.Lib.FileTree
import Picloud.Lib.JsonLines

/-!
# Volumes and snapshots

Reference: `LocalStorageBackend` and `LocalSnapshotManager` of
`picloud-storage/src/implementation.rs`, on one base path.

An operation may be stopped by an error of the operating system. It then comes with the text of its
error and with what it leaves behind (`IoFailure`); an operation that meets an obstacle in the file
tree, and is not given such a failure, is not enabled. `chrono` and the time stamps of directories
are parameters, and times are counted in microseconds.
-/

namespace Picloud

open Lib

/-! ## Data -/

/-- `PiCloudError`, as far as storage raises it. -/
inductive StorageError where
  | insufficientCapacity (requestedGb availableGb : ℕ)
  | resourceNotFound (iri : String)
  | internal (message : String)
deriving DecidableEq

/-- `VolumeType`. -/
inductive VolumeType where
  | mounted
  | rawBlock
deriving DecidableEq

/-- `DurabilityTier`. -/
inductive DurabilityTier where
  | fullReplication
  | quorum
  | localOnly
  | none
deriving DecidableEq

/-- The bytes of a file: those that have been written, then zeros. -/
structure Content where
  written : Bytes
  zeros : ℕ
deriving DecidableEq

/-- The files of a node. -/
abbrev Files := FileTree Content

/-- `VolumeRecord`. -/
structure VolumeRecord where
  sizeGb : ℕ
  devicePath : Path
deriving DecidableEq

/-- `VolumeHandle`. -/
structure VolumeHandle where
  volumeIri : ResourceIri
  devicePath : Path
  replicatedTo : List Uuid
deriving DecidableEq

/-- `SnapshotInfo`. -/
structure SnapshotInfo where
  volumeIri : ResourceIri
  snapshotPath : Path
  sizeBytes : ℕ
  createdAt : ℤ
deriving DecidableEq

/-- What the backend and the snapshot manager are made with. -/
structure StorageEnv where
  basePath : Path
  nodeId : Uuid
  totalCapacityGb : ℕ
  formatTs : ℤ → String
  parseRfc3339 : String → Option ℤ
  /-- The creation time of a directory, when its name does not tell. -/
  metadataCreated : Path → ℤ

/-- The recorded volumes, by their IRIs, and the files. -/
structure StorageState where
  files : Files
  volumes : Assoc String VolumeRecord
deriving DecidableEq

/-- An error of the operating system: its message and what the operation leaves behind. -/
structure IoFailure where
  message : String
  leftover : Files

/-! ## Paths -/

/-- `volume_name_from_iri`, and `volume_name` of the snapshot manager. -/
def volumeName (volumeIri : ResourceIri) : String := lastSegment volumeIri.value

namespace StorageEnv

variable (env : StorageEnv)

/-- The directory of a mounted volume. -/
def volumeDir (volumeIri : ResourceIri) : Path := env.basePath ++ [volumeName volumeIri]

/-- The file of a raw block device. -/
def blockFile (volumeIri : ResourceIri) : Path := env.basePath ++ ["block", volumeName volumeIri]

/-- `snapshot_dir`. -/
def snapshotDir (volumeIri : ResourceIri) : Path :=
  env.basePath ++ [".snapshots", volumeName volumeIri]

/-- Where a volume of a type lives. -/
def devicePath (volumeIri : ResourceIri) : VolumeType → Path
  | .mounted => env.volumeDir volumeIri
  | .rawBlock => env.blockFile volumeIri

/-- `parse_snapshot_name`: dashes of the time become colons. -/
def parseSnapshotName (name : String) : Option ℤ :=
  let chars := name.toList
  let rest := chars.drop 10
  if chars.length < 20 then none
  else if rest.head? ≠ some 'T' then none
  else if rest.length < 9 ∨ rest[3]? ≠ some '-' ∨ rest[6]? ≠ some '-' then none
  else env.parseRfc3339 (String.ofList (chars.take 10 ++ ['T'] ++ (rest.drop 1).take 2 ++ [':'] ++
    (rest.drop 4).take 2 ++ [':'] ++ rest.drop 7))

/-- `path.display()`. -/
def displayPath (path : Path) : String := "/" ++ "/".intercalate path

/-- The path that a text leads to, from a directory; an absolute text starts at the root. -/
def follow (files : Files) (dir : Path) (text : String) : Option Path :=
  let names := (text.toList.splitOnP (· = '/')).map String.ofList
  if text.toList.head? = some '/' then files.walk [] names else files.walk dir names

end StorageEnv

namespace StorageState

variable (env : StorageEnv) (s : StorageState)

/-! ## Capacity -/

/-- `allocated_gb`, in a `u64`. -/
def allocatedGb : ℕ := (s.volumes.map fun v => v.2.sizeGb).sum % 2 ^ 64

/-- `available_capacity_gb`. -/
def availableCapacityGb : ℕ := env.totalCapacityGb - s.allocatedGb

/-! ## Volumes -/

/-- The nodes that a volume is to be replicated to. The membership is `none` when there is none, and
its answer is `none` when it cannot be asked. -/
def replicatedTo (membership : Option (Option (List Uuid))) : DurabilityTier → List Uuid
  | .fullReplication =>
    match membership with
    | some (some members) => members
    | _ => [env.nodeId]
  | .quorum =>
    match membership with
    | some (some members) => members.take (members.length / 2 + 1)
    | _ => [env.nodeId]
  | .localOnly | .none => [env.nodeId]

/-- The files after the device of a volume has been made. -/
def makeDevice (files : Files) (volumeIri : ResourceIri) (sizeGb : ℕ) :
    VolumeType → Option Files
  | .mounted => files.createDirAll (env.volumeDir volumeIri)
  | .rawBlock => (files.createDirAll (env.basePath ++ ["block"])).bind fun files =>
      files.writeFile (env.blockFile volumeIri) ⟨[], sizeGb * 1024 * 1024 * 1024 % 2 ^ 64⟩

/-- `allocate_volume`. -/
def allocateVolume (volumeIri : ResourceIri) (sizeGb : ℕ) (durability : DurabilityTier)
    (volumeType : VolumeType) (membership : Option (Option (List Uuid))) (io : Option IoFailure) :
    Option (Except StorageError VolumeHandle × StorageState) :=
  let available := s.availableCapacityGb env
  if sizeGb > available then some (.error (.insufficientCapacity sizeGb available), s)
  else
    let path := env.devicePath volumeIri volumeType
    match io with
    | some failure => some (.error (.internal failure.message),
        { s with files := s.files.interrupted failure.leftover path })
    | none => (makeDevice env s.files volumeIri sizeGb volumeType).map fun files =>
        (.ok ⟨volumeIri, path, replicatedTo env membership durability⟩,
          ⟨files, Assoc.set s.volumes volumeIri.value ⟨sizeGb, path⟩⟩)

/-- `delete_volume`. The record goes first. -/
def deleteVolume (volumeIri : ResourceIri) (io : Option IoFailure) :
    Except StorageError Unit × StorageState :=
  match Assoc.get s.volumes volumeIri.value with
  | none => (.error (.resourceNotFound volumeIri.value), s)
  | some record =>
    let volumes := Assoc.erase s.volumes volumeIri.value
    if s.files.isPresent record.devicePath then
      match io with
      | some failure => (.error (.internal failure.message),
          ⟨s.files.interrupted failure.leftover record.devicePath, volumes⟩)
      | none => (.ok (), ⟨s.files.removeTree record.devicePath, volumes⟩)
    else (.ok (), { s with volumes := volumes })

/-! ## Snapshots -/

/-- The first time from a given one on whose directory is free; `fuel` bounds the search. -/
def freshTs (taken : String → Bool) : ℕ → ℤ → ℤ
  | 0, ts => ts
  | fuel + 1, ts => if taken (env.formatTs ts) then freshTs taken fuel (ts + 1) else ts

/-- The bytes of a file. -/
def contentSize (content : Content) : ℕ := content.written.length + content.zeros

/-- `create_snapshot_at`. There are more times to try than nodes. -/
def createSnapshotAt (volumeIri : ResourceIri) (atTime : ℤ) (io : Option IoFailure) :
    Option (Except StorageError SnapshotInfo × StorageState) :=
  if s.files.isPresent (env.volumeDir volumeIri) then
    let ts := freshTs env (fun name => s.files.isPresent (env.snapshotDir volumeIri ++ [name]))
      (s.files.length + 1) atTime
    let path := env.snapshotDir volumeIri ++ [env.formatTs ts]
    match io with
    | some failure => some (.error (.internal ("Failed to create snapshot for " ++
        volumeName volumeIri ++ ": " ++ failure.message)),
        { s with files := s.files.interrupted failure.leftover path })
    | none => (s.files.copyTree (env.volumeDir volumeIri) path).map fun files =>
        (.ok ⟨volumeIri, path, files.treeSize contentSize path, ts⟩, { s with files := files })
  else some (.error (.resourceNotFound volumeIri.value), s)

/-- The text of a snapshot that is not there. -/
def missingSnapshot (snapshot : String) (volumeIri : ResourceIri) : StorageError :=
  .resourceNotFound ("snapshot " ++ snapshot ++ " for " ++ volumeIri.value)

/-- The latest snapshots first. -/
def newestFirst (snapshots : List SnapshotInfo) : List SnapshotInfo :=
  snapshots.mergeSort fun a b => decide (b.createdAt ≤ a.createdAt)

/-- `list_snapshots`. -/
def listSnapshots (volumeIri : ResourceIri) : Except StorageError (List SnapshotInfo) :=
  let dir := env.snapshotDir volumeIri
  match s.files.get dir with
  | none => .ok []
  | some (.file _) => .error
      (.internal "Failed to read snapshot dir: Not a directory (os error 20)")
  | some .dir => .ok (newestFirst ((s.files.subdirs dir).map fun name =>
      ⟨volumeIri, dir ++ [name], s.files.treeSize contentSize (dir ++ [name]),
        (env.parseSnapshotName name).getD (env.metadataCreated (dir ++ [name]))⟩))

/-- `restore_snapshot`. The volume is cleared before the snapshot is copied. -/
def restoreSnapshot (volumeIri : ResourceIri) (timestamp : String) (io : Option IoFailure) :
    Option (Except StorageError Unit × StorageState) :=
  match StorageEnv.follow s.files (env.snapshotDir volumeIri) timestamp with
  | none => some (.error (missingSnapshot timestamp volumeIri), s)
  | some source =>
    let dir := env.volumeDir volumeIri
    match io with
    | some failure => some (.error (.internal failure.message),
        { s with files := s.files.interrupted failure.leftover dir })
    | none =>
      if s.files.isPresent dir ∧ ¬ s.files.isDir dir then none
      else ((s.files.removeTree dir).copyTree source dir).map fun files =>
        (.ok (), { s with files := files })

/-- `restore_snapshot_to_new_volume`. What the target holds already stays. -/
def restoreSnapshotToNewVolume (sourceIri : ResourceIri) (timestamp : String)
    (targetIri : ResourceIri) (io : Option IoFailure) :
    Option (Except StorageError Unit × StorageState) :=
  match StorageEnv.follow s.files (env.snapshotDir sourceIri) timestamp with
  | none => some (.error (missingSnapshot timestamp sourceIri), s)
  | some source =>
    let dir := env.volumeDir targetIri
    match io with
    | some failure => some (.error (.internal ("Failed to restore snapshot to new volume " ++
        volumeName targetIri ++ ": " ++ failure.message)),
        { s with files := s.files.interrupted failure.leftover dir })
    | none => (s.files.copyTree source dir).map fun files => (.ok (), { s with files := files })

/-- `delete_snapshot`. -/
def deleteSnapshot (volumeIri : ResourceIri) (path : Path) (io : Option IoFailure) :
    Option (Except StorageError Unit × StorageState) :=
  if s.files.isPresent path then
    match io with
    | some failure => some (.error (.internal ("Failed to delete snapshot: " ++ failure.message)),
        { s with files := s.files.interrupted failure.leftover path })
    | none =>
      if s.files.isDir path then some (.ok (), { s with files := s.files.removeTree path }) else none
  else some (.error (missingSnapshot (StorageEnv.displayPath path) volumeIri), s)

/-- Delete snapshots one after the other, up to the first error. -/
def deleteSnapshots (volumeIri : ResourceIri) :
    StorageState → List SnapshotInfo → List (Option IoFailure) →
      Option (Except StorageError Unit × StorageState)
  | s, [], _ => some (.ok (), s)
  | s, snapshot :: rest, ios =>
    (s.deleteSnapshot volumeIri snapshot.snapshotPath (ios.head?.getD none)).bind fun
      | (.error e, s) => some (.error e, s)
      | (.ok (), s) => deleteSnapshots volumeIri s rest ios.tail

/-- `enforce_retention`: the number of snapshots deleted. -/
def enforceRetention (volumeIri : ResourceIri) (daily : ℕ) (ios : List (Option IoFailure)) :
    Option (Except StorageError ℕ × StorageState) :=
  match s.listSnapshots env volumeIri with
  | .error e => some (.error e, s)
  | .ok snapshots =>
    if daily = 0 ∨ snapshots.length ≤ daily then some (.ok 0, s)
    else
      let toDelete := (newestFirst snapshots).drop daily
      (deleteSnapshots volumeIri s toDelete ios).map fun
        | (.error e, s) => (.error e, s)
        | (.ok (), s) => (.ok toDelete.length, s)

end StorageState

/-! ## Runs -/

/-- The operations. Workloads use their volumes in between, so the files may change in any way. -/
inductive StorageAction where
  | allocateVolume (volumeIri : ResourceIri) (sizeGb : ℕ) (durability : DurabilityTier)
      (volumeType : VolumeType) (membership : Option (Option (List Uuid))) (io : Option IoFailure)
  | deleteVolume (volumeIri : ResourceIri) (io : Option IoFailure)
  | createSnapshotAt (volumeIri : ResourceIri) (atTime : ℤ) (io : Option IoFailure)
  | restoreSnapshot (volumeIri : ResourceIri) (timestamp : String) (io : Option IoFailure)
  | restoreSnapshotToNewVolume (sourceIri : ResourceIri) (timestamp : String)
      (targetIri : ResourceIri) (io : Option IoFailure)
  | deleteSnapshot (volumeIri : ResourceIri) (snapshot : SnapshotInfo) (io : Option IoFailure)
  | enforceRetention (volumeIri : ResourceIri) (daily : ℕ) (ios : List (Option IoFailure))
  | workloads (files : Files)

namespace StorageState

variable (env : StorageEnv) (s : StorageState)

/-- The state after an operation. A snapshot is deleted when it is listed. -/
def step : StorageAction → Option StorageState
  | .allocateVolume iri sizeGb durability volumeType membership io =>
    (s.allocateVolume env iri sizeGb durability volumeType membership io).map Prod.snd
  | .deleteVolume iri io => some (s.deleteVolume iri io).2
  | .createSnapshotAt iri atTime io => (s.createSnapshotAt env iri atTime io).map Prod.snd
  | .restoreSnapshot iri timestamp io => (s.restoreSnapshot env iri timestamp io).map Prod.snd
  | .restoreSnapshotToNewVolume source timestamp target io =>
    (s.restoreSnapshotToNewVolume env source timestamp target io).map Prod.snd
  | .deleteSnapshot iri snapshot io =>
    match s.listSnapshots env iri with
    | .error _ => none
    | .ok snapshots => if snapshot ∈ snapshots then
        (s.deleteSnapshot iri snapshot.snapshotPath io).map Prod.snd else none
  | .enforceRetention iri daily ios => (s.enforceRetention env iri daily ios).map Prod.snd
  | .workloads files => some { s with files := files }

end StorageState

end Picloud
