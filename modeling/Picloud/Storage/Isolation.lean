import Picloud.Lib.Steps
import Picloud.Storage.Volumes

/-!
# Isolation of volumes

A volume lives under the last segment of its IRI: its directory next to those of the other volumes,
its block device in the directory `block`, its snapshots in `.snapshots`. An operation changes only
paths that lead to or come from those of its volume (`changes_frame`), so two volumes are kept apart
when their names differ and neither is called `block` while the other is a block device. Symbolic
links, which the copies follow, are outside the model.
-/

namespace Picloud

open Lib

/-! ## Volumes of a run -/

/-- Lower-case letters, digits and dashes. -/
def Slug (s : String) : Prop := s ≠ "" ∧ ∀ c ∈ s.toList, c.isLower ∨ c.isDigit ∨ c = '-'

/-- The IRI of a resource whose segments are slugs. -/
def IsVolumeIri (iris : IriBuilder) (volumeIri : ResourceIri) : Prop :=
  ∃ product resourceType name, Slug product ∧ Slug resourceType ∧ Slug name ∧
    volumeIri = ⟨iris.resource product resourceType name⟩

namespace StorageAction

/-- The volumes that an operation is about: it may change those. -/
def volumes : StorageAction → List ResourceIri
  | .allocateVolume iri .. | .deleteVolume iri _ | .createSnapshotAt iri .. | .restoreSnapshot iri ..
  | .deleteSnapshot iri .. | .enforceRetention iri .. => [iri]
  | .restoreSnapshotToNewVolume source _ target _ => [source, target]
  | .workloads _ => []

/-- The operation allocates a raw block device for a volume. -/
def AllocatesRaw (volumeIri : ResourceIri) : StorageAction → Prop
  | .allocateVolume iri _ _ .rawBlock _ _ => iri = volumeIri
  | _ => False

end StorageAction

/-- The volume is used in the run. -/
def UsedIn (schedule : List StorageAction) (volumeIri : ResourceIri) : Prop :=
  ∃ a ∈ schedule, volumeIri ∈ a.volumes

/-- The volume is allocated as a raw block device in the run. -/
def RawIn (schedule : List StorageAction) (volumeIri : ResourceIri) : Prop :=
  ∃ a ∈ schedule, a.AllocatesRaw volumeIri

/-- No two volumes of the run have the same name, and no volume is called `block` when another one
is a raw block device. -/
def KeptApart (schedule : List StorageAction) : Prop :=
  ∀ v w, UsedIn schedule v → UsedIn schedule w → v ≠ w →
    volumeName v ≠ volumeName w ∧ (volumeName v = "block" → ¬ RawIn schedule w)

/-! ## What belongs to a volume -/

namespace StorageState

variable (env : StorageEnv) (s : StorageState)

/-- The path is one of the files, the block device or the snapshots of the volume. -/
def Belongs (volumeIri : ResourceIri) (q : Path) : Prop :=
  env.volumeDir volumeIri <+: q ∨ env.snapshotDir volumeIri <+: q ∨
    (q = env.blockFile volumeIri ∧
      ∃ record, Assoc.get s.volumes volumeIri.value = some record ∧ record.devicePath = q)

/-- An operation changes nothing that belongs to another volume of the run. -/
def Isolates (schedule : List StorageAction) (a : StorageAction) : Prop :=
  (∃ files, a = .workloads files) ∨
    ∀ s', s.step env a = some s' → ∀ w, UsedIn schedule w → w ∉ a.volumes →
      ∀ q, s.Belongs env w q → s'.files.get q = s.files.get q

/-- No two volumes have the same device path. -/
def DistinctDevices : Prop :=
  ∀ v w record record', v ≠ w → Assoc.get s.volumes v = some record →
    Assoc.get s.volumes w = some record' → record.devicePath ≠ record'.devicePath

/-! ## Frames of the operations -/

variable {env : StorageEnv} {s s' : StorageState} {v : ResourceIri} {q : Path}

variable {sizeGb : ℕ} {volumeType : VolumeType} {io : Option IoFailure} {p p' : Path}
  {result : Except StorageError Unit} {iris : IriBuilder} {name : String}

theorem makeDevice_frame {files files' : Files}
    (h : makeDevice env files v sizeGb volumeType = some files')
    (hq : ¬ Comparable (env.devicePath v volumeType) q) : files'.get q = files.get q := by
  cases volumeType with
  | mounted => exact FileTree.createDirAll_frame h fun hpre => hq (Or.inr hpre)
  | rawBlock =>
    obtain ⟨files₁, hdir, hfile⟩ := Option.bind_eq_some_iff.mp h
    rw [FileTree.writeFile_frame hfile, FileTree.createDirAll_frame hdir]
    · intro hpre
      refine hq (Or.inr (hpre.trans ?_))
      exact (List.prefix_append_right_inj _).mpr (List.prefix_append ["block"] _)
    · rintro rfl
      exact hq (Or.inl (List.prefix_refl _))

theorem allocateVolume_frame {durability : DurabilityTier}
    {membership : Option (Option (List Uuid))} {result : Except StorageError VolumeHandle}
    (h : s.allocateVolume env v sizeGb durability volumeType membership io = some (result, s'))
    (hq : ¬ Comparable (env.devicePath v volumeType) q) : s'.files.get q = s.files.get q := by
  rw [allocateVolume] at h
  split at h
  · cases h
    rfl
  · split at h
    · cases h
      exact FileTree.interrupted_frame hq
    · obtain ⟨files, hmake, heq⟩ := Option.map_eq_some_iff.mp h
      cases heq
      exact makeDevice_frame hmake hq

theorem deleteVolume_frame
    (hq : ∀ record, Assoc.get s.volumes v.value = some record → ¬ Comparable record.devicePath q) :
    (s.deleteVolume v io).2.files.get q = s.files.get q := by
  rw [deleteVolume]
  split
  · rfl
  · next record hrecord =>
    dsimp only
    split
    · split
      · exact FileTree.interrupted_frame (hq record hrecord)
      · exact FileTree.removeTree_frame (hq record hrecord)
    · rfl

/-- What does not touch a path does not touch a path below it. -/
theorem not_comparable_append {rest : Path} (hq : ¬ Comparable p q) :
    ¬ Comparable (p ++ rest) q := by
  rintro (hpre | hpre)
  · exact hq (Or.inl ((List.prefix_append p rest).trans hpre))
  · exact hq (FileTree.comparable_of_isPrefix_append hpre)

/-- The records stay, and of the files only those that lead to or come from a path change. -/
structure ChangesOnly (p : Path) (s s' : StorageState) : Prop where
  volumes : s'.volumes = s.volumes
  files : ∀ q, ¬ Comparable p q → s'.files.get q = s.files.get q

theorem ChangesOnly.refl (p : Path) (s : StorageState) : ChangesOnly p s s := ⟨rfl, fun _ _ => rfl⟩

theorem ChangesOnly.trans {s₁ s₂ s₃ : StorageState} (h : ChangesOnly p s₁ s₂)
    (h' : ChangesOnly p s₂ s₃) : ChangesOnly p s₁ s₃ :=
  ⟨h'.volumes.trans h.volumes, fun q hq => (h'.files q hq).trans (h.files q hq)⟩

/-- From a path below. -/
theorem ChangesOnly.of_append {rest : Path} (h : ChangesOnly (p ++ rest) s s') :
    ChangesOnly p s s' :=
  ⟨h.volumes, fun q hq => h.files q (not_comparable_append hq)⟩

theorem changesOnly_interrupted (s : StorageState) (leftover : Files) (p : Path) :
    ChangesOnly p s { s with files := s.files.interrupted leftover p } :=
  ⟨rfl, fun _ hq => FileTree.interrupted_frame hq⟩

theorem changesOnly_copyTree {src : Path} {files : Files} (h : s.files.copyTree src p = some files) :
    ChangesOnly p s { s with files := files } :=
  ⟨rfl, fun _ hq => FileTree.copyTree_frame h hq⟩

theorem changesOnly_removeTree (s : StorageState) (p : Path) :
    ChangesOnly p s { s with files := s.files.removeTree p } :=
  ⟨rfl, fun _ hq => FileTree.removeTree_frame hq⟩

theorem createSnapshotAt_changesOnly {atTime : ℤ} {result : Except StorageError SnapshotInfo}
    (h : s.createSnapshotAt env v atTime io = some (result, s')) :
    ChangesOnly (env.snapshotDir v) s s' := by
  rw [createSnapshotAt] at h
  split at h
  · split at h
    · cases h
      exact (changesOnly_interrupted s _ _).of_append
    · obtain ⟨files, hcopy, heq⟩ := Option.map_eq_some_iff.mp h
      cases heq
      exact (changesOnly_copyTree hcopy).of_append
  · cases h
    exact ChangesOnly.refl _ _

theorem restoreSnapshot_changesOnly {timestamp : String}
    (h : s.restoreSnapshot env v timestamp io = some (result, s')) :
    ChangesOnly (env.volumeDir v) s s' := by
  rw [restoreSnapshot] at h
  split at h
  · cases h
    exact ChangesOnly.refl _ _
  · split at h
    · cases h
      exact changesOnly_interrupted s _ _
    · dsimp only at h
      split at h
      · cases h
      · obtain ⟨files, hcopy, heq⟩ := Option.map_eq_some_iff.mp h
        cases heq
        have hclear := changesOnly_removeTree s (env.volumeDir v)
        exact ⟨rfl, fun q hq => (FileTree.copyTree_frame hcopy hq).trans (hclear.files q hq)⟩

theorem restoreSnapshotToNewVolume_changesOnly {source target : ResourceIri} {timestamp : String}
    (h : s.restoreSnapshotToNewVolume env source timestamp target io = some (result, s')) :
    ChangesOnly (env.volumeDir target) s s' := by
  rw [restoreSnapshotToNewVolume] at h
  split at h
  · cases h
    exact ChangesOnly.refl _ _
  · split at h
    · cases h
      exact changesOnly_interrupted s _ _
    · obtain ⟨files, hcopy, heq⟩ := Option.map_eq_some_iff.mp h
      cases heq
      exact changesOnly_copyTree hcopy

theorem deleteSnapshot_changesOnly {path : Path}
    (h : s.deleteSnapshot v path io = some (result, s')) :
    ChangesOnly path s s' := by
  unfold deleteSnapshot at h
  split at h
  · split at h
    · cases h
      exact changesOnly_interrupted s _ _
    · split at h
      · cases h
        exact changesOnly_removeTree s path
      · cases h
  · cases h
    exact ChangesOnly.refl _ _

/-- A listed snapshot is in the snapshot directory of its volume. -/
theorem snapshotPath_of_listed {snapshots : List SnapshotInfo}
    (h : s.listSnapshots env v = .ok snapshots) {snapshot : SnapshotInfo}
    (hmem : snapshot ∈ snapshots) : ∃ name, snapshot.snapshotPath = env.snapshotDir v ++ [name] := by
  rw [listSnapshots] at h
  split at h
  · cases h
    exact absurd hmem List.not_mem_nil
  · cases h
  · cases h
    obtain ⟨name, -, rfl⟩ := List.mem_map.mp (List.mem_mergeSort.mp hmem)
    exact ⟨name, rfl⟩

/-- Deleting a listed snapshot. -/
theorem deleteListed_changesOnly {path : Path} (h : s.deleteSnapshot v path io = some (result, s'))
    (hpath : ∃ name, path = env.snapshotDir v ++ [name]) : ChangesOnly (env.snapshotDir v) s s' := by
  obtain ⟨name, rfl⟩ := hpath
  exact (deleteSnapshot_changesOnly h).of_append

theorem deleteSnapshots_changesOnly {toDelete : List SnapshotInfo} {ios : List (Option IoFailure)}
    (h : deleteSnapshots v s toDelete ios = some (result, s'))
    (hlisted : ∀ snapshot ∈ toDelete, ∃ name, snapshot.snapshotPath = env.snapshotDir v ++ [name]) :
    ChangesOnly (env.snapshotDir v) s s' := by
  induction toDelete generalizing s ios with
  | nil =>
    cases h
    exact ChangesOnly.refl _ _
  | cons snapshot rest ih =>
    obtain ⟨⟨outcome, s₁⟩, hfirst, hrest⟩ := Option.bind_eq_some_iff.mp h
    have hone := deleteListed_changesOnly hfirst (hlisted snapshot List.mem_cons_self)
    cases outcome with
    | error e =>
      cases hrest
      exact hone
    | ok u =>
      exact hone.trans
        (ih hrest fun snapshot' hmem => hlisted snapshot' (List.mem_cons_of_mem _ hmem))

theorem enforceRetention_changesOnly {daily : ℕ} {ios : List (Option IoFailure)}
    {result : Except StorageError ℕ}
    (h : s.enforceRetention env v daily ios = some (result, s')) :
    ChangesOnly (env.snapshotDir v) s s' := by
  rw [enforceRetention] at h
  split at h
  · cases h
    exact ChangesOnly.refl _ _
  · next snapshots hlist =>
    split at h
    · cases h
      exact ChangesOnly.refl _ _
    · obtain ⟨⟨outcome, s₁⟩, hdelete, heq⟩ := Option.map_eq_some_iff.mp h
      have hdeleted : ChangesOnly (env.snapshotDir v) s s₁ :=
        deleteSnapshots_changesOnly hdelete fun snapshot hmem =>
          snapshotPath_of_listed hlist (List.mem_mergeSort.mp (List.mem_of_mem_drop hmem))
      cases outcome with
      | error e =>
        cases heq
        exact hdeleted
      | ok u =>
        cases heq
        exact hdeleted

/-! ## Disjoint paths -/

/-- The paths that an operation on a volume may change. -/
def MayTouch (env : StorageEnv) (schedule : List StorageAction) (v : ResourceIri) (q : Path) : Prop :=
  Comparable (env.volumeDir v) q ∨ Comparable (env.snapshotDir v) q ∨
    (RawIn schedule v ∧ Comparable (env.blockFile v) q)

theorem comparable_of_isPrefix (h : Comparable p q) (hpre : p' <+: q) :
    Comparable p p' := by
  rcases h with hbelow | habove
  · exact List.prefix_or_prefix_of_prefix hbelow hpre
  · exact Or.inr (hpre.trans habove)

theorem comparable_append_iff {base : Path} :
    Comparable (base ++ p) (base ++ p') ↔ Comparable p p' := by
  rw [Comparable, List.prefix_append_right_inj, List.prefix_append_right_inj, Comparable]

theorem comparable_cons_iff {a b : String} :
    Comparable (a :: p) (b :: p') ↔ a = b ∧ Comparable p p' := by
  simp only [Comparable, List.cons_prefix_cons]
  constructor
  · rintro (⟨rfl, hpre⟩ | ⟨rfl, hpre⟩)
    · exact ⟨rfl, Or.inl hpre⟩
    · exact ⟨rfl, Or.inr hpre⟩
  · rintro ⟨rfl, hpre | hpre⟩
    · exact Or.inl ⟨rfl, hpre⟩
    · exact Or.inr ⟨rfl, hpre⟩

theorem volumeName_resource {product resourceType : String} (h : Slug name) :
    volumeName ⟨iris.resource product resourceType name⟩ = name := by
  refine lastSegment_append _ fun hslash => ?_
  have hchar := h.2 '/' hslash
  revert hchar
  decide

/-- A volume is not called `.snapshots`. -/
theorem volumeName_ne_snapshots (h : IsVolumeIri iris v) :
    volumeName v ≠ ".snapshots" := by
  obtain ⟨product, resourceType, name, -, -, hname, rfl⟩ := h
  rw [volumeName_resource hname]
  rintro rfl
  have hchar := hname.2 '.' (by decide)
  revert hchar
  decide

/-- What an operation on one volume may change does not belong to another one. -/
theorem not_mayTouch {schedule : List StorageAction} {w : ResourceIri} (hv : IsVolumeIri iris v)
    (hw : IsVolumeIri iris w) (hname : volumeName v ≠ volumeName w)
    (hblock : volumeName v = "block" → ¬ RawIn schedule w)
    (hblock' : volumeName w = "block" → ¬ RawIn schedule v)
    (hraw : ∀ record, Assoc.get s.volumes w.value = some record →
      record.devicePath = env.blockFile w → RawIn schedule w) (hq : s.Belongs env w q) :
    ¬ MayTouch env schedule v q := by
  have hvs := volumeName_ne_snapshots hv
  have hws := volumeName_ne_snapshots hw
  rcases hq with hdir | hsnap | ⟨rfl, record, hrecord, hpath⟩
  · rintro (h | h | ⟨hraw', h⟩)
    all_goals
      have hcomp := comparable_append_iff.mp (comparable_of_isPrefix h hdir)
      have hhead := (comparable_cons_iff.mp hcomp).1
    · exact hname hhead
    · exact hws hhead.symm
    · exact hblock' hhead.symm hraw'
  · rintro (h | h | ⟨-, h⟩)
    all_goals
      have hcomp := comparable_append_iff.mp (comparable_of_isPrefix h hsnap)
      obtain ⟨hhead, hrest⟩ := comparable_cons_iff.mp hcomp
    · exact hvs hhead
    · exact hname (comparable_cons_iff.mp hrest).1
    · exact absurd hhead (by decide)
  · have hw' := hraw record hrecord hpath
    rintro (h | h | ⟨-, h⟩)
    all_goals obtain ⟨hhead, hrest⟩ := comparable_cons_iff.mp (comparable_append_iff.mp h)
    · exact hblock hhead hw'
    · exact absurd hhead (by decide)
    · exact hname (comparable_cons_iff.mp hrest).1

/-! ## Runs -/

/-- Every record is of a volume of the run, and points to where the volume lives. -/
def Recorded (env : StorageEnv) (schedule : List StorageAction) (s : StorageState) : Prop :=
  ∀ key record, Assoc.get s.volumes key = some record → ∃ v, v.value = key ∧ UsedIn schedule v ∧
    (record.devicePath = env.volumeDir v ∨
      (record.devicePath = env.blockFile v ∧ RawIn schedule v))

/-- Where an operation other than the allocation and the deletion of a volume works. -/
theorem changesOnly_of_step {a : StorageAction} (h : s.step env a = some s')
    (hallocate : ∀ v n d t m io, a ≠ .allocateVolume v n d t m io)
    (hdelete : ∀ v io, a ≠ .deleteVolume v io) (hworkloads : ∀ files, a ≠ .workloads files) :
    ∃ v ∈ a.volumes, ChangesOnly (env.volumeDir v) s s' ∨ ChangesOnly (env.snapshotDir v) s s' := by
  cases a with
  | allocateVolume v n d t m io => exact absurd rfl (hallocate v n d t m io)
  | deleteVolume v io => exact absurd rfl (hdelete v io)
  | workloads files => exact absurd rfl (hworkloads files)
  | createSnapshotAt v atTime io =>
    obtain ⟨⟨result, s₁⟩, hop, rfl⟩ := Option.map_eq_some_iff.mp h
    exact ⟨v, List.mem_cons_self, Or.inr (createSnapshotAt_changesOnly hop)⟩
  | restoreSnapshot v timestamp io =>
    obtain ⟨⟨result, s₁⟩, hop, rfl⟩ := Option.map_eq_some_iff.mp h
    exact ⟨v, List.mem_cons_self, Or.inl (restoreSnapshot_changesOnly hop)⟩
  | restoreSnapshotToNewVolume source timestamp target io =>
    obtain ⟨⟨result, s₁⟩, hop, rfl⟩ := Option.map_eq_some_iff.mp h
    refine ⟨target, ?_, Or.inl (restoreSnapshotToNewVolume_changesOnly hop)⟩
    exact List.mem_cons_of_mem _ List.mem_cons_self
  | deleteSnapshot v snapshot io =>
    rw [step] at h
    split at h
    · cases h
    · next snapshots hlist =>
      split at h
      · next hmem =>
        obtain ⟨⟨result, s₁⟩, hop, rfl⟩ := Option.map_eq_some_iff.mp h
        exact ⟨v, List.mem_cons_self,
          Or.inr (deleteListed_changesOnly hop (snapshotPath_of_listed hlist hmem))⟩
      · cases h
  | enforceRetention v daily ios =>
    obtain ⟨⟨result, s₁⟩, hop, rfl⟩ := Option.map_eq_some_iff.mp h
    exact ⟨v, List.mem_cons_self, Or.inr (enforceRetention_changesOnly hop)⟩

theorem volumes_of_allocateVolume {durability : DurabilityTier}
    {membership : Option (Option (List Uuid))} {result : Except StorageError VolumeHandle}
    (h : s.allocateVolume env v sizeGb durability volumeType membership io = some (result, s')) :
    s'.volumes = s.volumes ∨
      s'.volumes = Assoc.set s.volumes v.value ⟨sizeGb, env.devicePath v volumeType⟩ := by
  rw [allocateVolume] at h
  split at h
  · cases h
    exact Or.inl rfl
  · split at h
    · cases h
      exact Or.inl rfl
    · obtain ⟨files, -, heq⟩ := Option.map_eq_some_iff.mp h
      cases heq
      exact Or.inr rfl

theorem volumes_of_deleteVolume (v : ResourceIri) (io : Option IoFailure) :
    (s.deleteVolume v io).2.volumes = s.volumes ∨
      (s.deleteVolume v io).2.volumes = Assoc.erase s.volumes v.value := by
  rw [deleteVolume]
  split
  · exact Or.inl rfl
  · dsimp only
    split
    · split <;> exact Or.inr rfl
    · exact Or.inr rfl

section Run

variable {schedule : List StorageAction}

theorem Recorded.of_volumes_eq (hs : Recorded env schedule s) (h : s'.volumes = s.volumes) :
    Recorded env schedule s' := by
  intro key record hrecord
  rw [h] at hrecord
  exact hs key record hrecord

variable {a : StorageAction}

theorem recorded_step (hs : Recorded env schedule s) (ha : a ∈ schedule)
    (h : s.step env a = some s') : Recorded env schedule s' := by
  by_cases hallocate : ∃ v n d t m io, a = .allocateVolume v n d t m io
  · obtain ⟨v, n, d, t, m, io, rfl⟩ := hallocate
    obtain ⟨⟨result, s₁⟩, hop, rfl⟩ := Option.map_eq_some_iff.mp h
    rcases volumes_of_allocateVolume hop with hsame | hset
    · exact hs.of_volumes_eq hsame
    · intro key record hrecord
      dsimp only at hrecord
      rw [hset] at hrecord
      by_cases hkey : key = v.value
      · subst hkey
        rw [Assoc.get_set_self] at hrecord
        cases hrecord
        refine ⟨v, rfl, ⟨_, ha, List.mem_cons_self⟩, ?_⟩
        cases t with
        | mounted => exact Or.inl rfl
        | rawBlock => exact Or.inr ⟨rfl, _, ha, rfl⟩
      · rw [Assoc.get_set_of_ne _ _ hkey] at hrecord
        exact hs key record hrecord
  · by_cases hdelete : ∃ v io, a = .deleteVolume v io
    · obtain ⟨v, io, rfl⟩ := hdelete
      cases h
      rcases volumes_of_deleteVolume (s := s) v io with hsame | herase
      · exact hs.of_volumes_eq hsame
      · intro key record hrecord
        rw [herase] at hrecord
        by_cases hkey : key = v.value
        · rw [hkey, Assoc.get_erase_self] at hrecord
          cases hrecord
        · rw [Assoc.get_erase_of_ne _ hkey] at hrecord
          exact hs key record hrecord
    · by_cases hworkloads : ∃ files, a = .workloads files
      · obtain ⟨files, rfl⟩ := hworkloads
        cases h
        exact hs
      · obtain ⟨v, -, hchanges⟩ := changesOnly_of_step h
          (fun v n d t m io heq => hallocate ⟨v, n, d, t, m, io, heq⟩)
          (fun v io heq => hdelete ⟨v, io, heq⟩) (fun files heq => hworkloads ⟨files, heq⟩)
        rcases hchanges with hchanges | hchanges <;> exact hs.of_volumes_eq hchanges.volumes

/-- An operation changes only what the operations on its volumes may change. -/
theorem step_frame (hs : Recorded env schedule s) (ha : a ∈ schedule)
    (hworkloads : ∀ files, a ≠ .workloads files) (h : s.step env a = some s')
    (hq : ∀ v ∈ a.volumes, ¬ MayTouch env schedule v q) : s'.files.get q = s.files.get q := by
  by_cases hallocate : ∃ v n d t m io, a = .allocateVolume v n d t m io
  · obtain ⟨v, n, d, t, m, io, rfl⟩ := hallocate
    obtain ⟨⟨result, s₁⟩, hop, rfl⟩ := Option.map_eq_some_iff.mp h
    refine allocateVolume_frame hop fun hcomp => hq v List.mem_cons_self ?_
    cases t with
    | mounted => exact Or.inl hcomp
    | rawBlock => exact Or.inr (Or.inr ⟨⟨_, ha, rfl⟩, hcomp⟩)
  · by_cases hdelete : ∃ v io, a = .deleteVolume v io
    · obtain ⟨v, io, rfl⟩ := hdelete
      cases h
      refine deleteVolume_frame fun record hrecord hcomp => hq v List.mem_cons_self ?_
      obtain ⟨v', hv', -, hpath⟩ := hs v.value record hrecord
      obtain rfl : v' = v := by
        cases v'
        cases v
        cases hv'
        rfl
      rcases hpath with hpath | ⟨hpath, hraw⟩
      · exact Or.inl (hpath ▸ hcomp)
      · exact Or.inr (Or.inr ⟨hraw, hpath ▸ hcomp⟩)
    · obtain ⟨v, hv, hchanges⟩ := changesOnly_of_step h
        (fun v n d t m io heq => hallocate ⟨v, n, d, t, m, io, heq⟩)
        (fun v io heq => hdelete ⟨v, io, heq⟩) hworkloads
      rcases hchanges with hchanges | hchanges
      · exact hchanges.files q fun hcomp => hq v hv (Or.inl hcomp)
      · exact hchanges.files q fun hcomp => hq v hv (Or.inr (Or.inl hcomp))

theorem isolates_of_recorded {iris : IriBuilder}
    (hslug : ∀ v, UsedIn schedule v → IsVolumeIri iris v) (hapart : KeptApart schedule)
    (hs : Recorded env schedule s) (ha : a ∈ schedule) : s.Isolates env schedule a := by
  by_cases hworkloads : ∃ files, a = .workloads files
  · exact Or.inl hworkloads
  · refine Or.inr fun s' h w hw hother q hbelongs => ?_
    refine step_frame hs ha (fun files heq => hworkloads ⟨files, heq⟩) h fun v hv => ?_
    have hused : UsedIn schedule v := ⟨a, ha, hv⟩
    have hne : v ≠ w := fun heq => hother (heq ▸ hv)
    obtain ⟨hname, hblock⟩ := hapart v w hused hw hne
    obtain ⟨-, hblock'⟩ := hapart w v hw hused hne.symm
    refine not_mayTouch (hslug v hused) (hslug w hw) hname hblock hblock' ?_ hbelongs
    intro record hrecord hpath
    obtain ⟨w', hw', -, hplace⟩ := hs w.value record hrecord
    obtain rfl : w' = w := by
      cases w'
      cases w
      cases hw'
      rfl
    rcases hplace with hdir | ⟨-, hraw⟩
    · rw [hdir] at hpath
      exact absurd (congrArg List.length hpath) (by simp [StorageEnv.volumeDir, StorageEnv.blockFile])
    · exact hraw

theorem distinctDevices_of_recorded (hapart : KeptApart schedule) (hs : Recorded env schedule s) :
    s.DistinctDevices := by
  intro key key' record record' hne hrecord hrecord' hpath
  obtain ⟨v, rfl, hv, hplace⟩ := hs key record hrecord
  obtain ⟨w, rfl, hw, hplace'⟩ := hs key' record' hrecord'
  have hname := (hapart v w hv hw fun heq => hne (heq ▸ rfl)).1
  rcases hplace with hdir | ⟨hdir, -⟩ <;> rcases hplace' with hdir' | ⟨hdir', -⟩ <;>
    rw [hdir, hdir'] at hpath
  · exact hname (by simpa [StorageEnv.volumeDir] using hpath)
  · simp [StorageEnv.volumeDir, StorageEnv.blockFile] at hpath
  · simp [StorageEnv.volumeDir, StorageEnv.blockFile] at hpath
  · exact hname (by simpa [StorageEnv.blockFile] using hpath)

end Run

/-- **Volumes with different names are isolated.** In every run whose volumes are kept apart by their
names, no operation changes what belongs to another volume, and no two volumes share a device
path. -/
theorem volumes_isolated (env : StorageEnv) (iris : IriBuilder) (files : Files)
    (schedule : List StorageAction) (hslug : ∀ v, UsedIn schedule v → IsVolumeIri iris v)
    (hapart : KeptApart schedule) :
    StepsMeet (step env) (Isolates env · schedule) ⟨files, []⟩ schedule ∧
      ∀ s, runSteps (step env) ⟨files, []⟩ schedule = some s → s.DistinctDevices := by
  have hstart : Recorded env schedule ⟨files, []⟩ := fun _ _ h => by cases h
  have hin : StepsMeet (step env) (fun _ a => a ∈ schedule) ⟨files, []⟩ schedule :=
    stepsMeet_of_forall _ (fun a ha _ => ha) _
  constructor
  · exact hin.of_invariant _ (fun s a s' hs ha h => recorded_step hs ha h)
      (fun s a hs ha => isolates_of_recorded hslug hapart hs ha) hstart
  · intro s hrun
    exact distinctDevices_of_recorded hapart
      (runSteps_invariant _ (fun s a s' hs ha h => recorded_step hs ha h) schedule _ s hstart hin hrun)

/-! ## Two products with a volume each -/

/-- A node with a hundred gigabytes under `/data`. -/
def sampleStorage : StorageEnv where
  basePath := ["data"]
  nodeId := 1
  totalCapacityGb := 100
  formatTs _ := "2025-07-01T02-00-00.123456Z"
  parseRfc3339 _ := none
  metadataCreated _ := 0

/-- A volume of a product. -/
def sampleVolume (product name : String) : ResourceIri :=
  ⟨IriBuilder.resource ⟨"picloud.local"⟩ product "volumes" name⟩

/-- A mounted volume of one gigabyte is allocated. -/
def allocateMounted (product name : String) : StorageAction :=
  .allocateVolume (sampleVolume product name) 1 .localOnly .mounted none none

/-- Two products allocate volumes, one of them stores a file, and the other deletes its volume. -/
def twoProducts (name name' : String) : List StorageAction :=
  [allocateMounted "photo-app" name, allocateMounted "user-service" name',
    .workloads [(["data"], .dir), (["data", name], .dir), (["data", name'], .dir),
      (["data", name', "users.db"], .file ⟨[1, 2, 3], 0⟩)],
    .deleteVolume (sampleVolume "photo-app" name) none]

theorem isVolumeIri_sampleVolume {product : String} (hproduct : Slug product) (hname : Slug name) :
    IsVolumeIri ⟨"picloud.local"⟩ (sampleVolume product name) :=
  ⟨product, "volumes", name, hproduct, by unfold Slug; decide, hname, rfl⟩

theorem usedIn_twoProducts {name' : String} (h : UsedIn (twoProducts name name') v) :
    v = sampleVolume "photo-app" name ∨ v = sampleVolume "user-service" name' := by
  obtain ⟨a, ha, hv⟩ := h
  simp only [twoProducts, List.mem_cons, List.not_mem_nil, or_false] at ha
  rcases ha with rfl | rfl | rfl | rfl
  · exact Or.inl (List.mem_singleton.mp hv)
  · exact Or.inr (List.mem_singleton.mp hv)
  · exact absurd hv List.not_mem_nil
  · exact Or.inl (List.mem_singleton.mp hv)

/-- With different names the volumes are isolated. -/
theorem volumes_isolated_named_apart :
    StepsMeet (step sampleStorage) (Isolates sampleStorage · (twoProducts "photos" "users"))
      ⟨[(["data"], .dir)], []⟩ (twoProducts "photos" "users") := by
  have hraw : ∀ v, ¬ RawIn (twoProducts "photos" "users") v := by
    rintro v ⟨a, ha, hallocates⟩
    simp only [twoProducts, List.mem_cons, List.not_mem_nil, or_false] at ha
    rcases ha with rfl | rfl | rfl | rfl <;> exact hallocates
  refine (volumes_isolated sampleStorage ⟨"picloud.local"⟩ _ _ ?_ ?_).1
  · intro v hv
    rcases usedIn_twoProducts hv with rfl | rfl
    · exact isVolumeIri_sampleVolume (by unfold Slug; decide) (by unfold Slug; decide)
    · exact isVolumeIri_sampleVolume (by unfold Slug; decide) (by unfold Slug; decide)
  · intro v w hv hw hne
    refine ⟨?_, fun _ => hraw w⟩
    rcases usedIn_twoProducts hv with rfl | rfl <;> rcases usedIn_twoProducts hw with rfl | rfl
    · exact absurd rfl hne
    · decide +kernel
    · decide +kernel
    · exact absurd rfl hne

/-- The state when both products have allocated their volumes and the second has stored a file. -/
def sharedDirectory : StorageState where
  files := [(["data"], .dir), (["data", "data"], .dir), (["data", "data"], .dir),
    (["data", "data", "users.db"], .file ⟨[1, 2, 3], 0⟩)]
  volumes := [((sampleVolume "user-service" "data").value, ⟨1, ["data", "data"]⟩),
    ((sampleVolume "photo-app" "data").value, ⟨1, ["data", "data"]⟩)]

/-- Two products whose volumes have the same name share the directory, and deleting one volume
deletes the files of the other. -/
theorem same_name_not_isolated :
    IsVolumeIri ⟨"picloud.local"⟩ (sampleVolume "photo-app" "data") ∧
    IsVolumeIri ⟨"picloud.local"⟩ (sampleVolume "user-service" "data") ∧
    sampleVolume "photo-app" "data" ≠ sampleVolume "user-service" "data" ∧
    runSteps (step sampleStorage) ⟨[(["data"], .dir)], []⟩ ((twoProducts "data" "data").take 3) =
      some sharedDirectory ∧
    ¬ sharedDirectory.DistinctDevices ∧
    ¬ StepsMeet (step sampleStorage) (Isolates sampleStorage · (twoProducts "data" "data"))
      ⟨[(["data"], .dir)], []⟩ (twoProducts "data" "data") := by
  have hne : sampleVolume "photo-app" "data" ≠ sampleVolume "user-service" "data" := by
    decide +kernel
  have hrun : runSteps (step sampleStorage) ⟨[(["data"], .dir)], []⟩
      ((twoProducts "data" "data").take 3) = some sharedDirectory := by decide +kernel
  refine ⟨isVolumeIri_sampleVolume (by unfold Slug; decide) (by unfold Slug; decide),
    isVolumeIri_sampleVolume (by unfold Slug; decide) (by unfold Slug; decide), hne, hrun, ?_, ?_⟩
  · intro hdistinct
    refine hdistinct (sampleVolume "photo-app" "data").value
      (sampleVolume "user-service" "data").value ⟨1, ["data", "data"]⟩ ⟨1, ["data", "data"]⟩ ?_ ?_ ?_
      rfl
    · decide +kernel
    · decide +kernel
    · decide +kernel
  · intro hmeet
    have hsplit : StepsMeet (step sampleStorage)
        (Isolates sampleStorage · (twoProducts "data" "data")) ⟨[(["data"], .dir)], []⟩
        ((twoProducts "data" "data").take 3 ++
          [.deleteVolume (sampleVolume "photo-app" "data") none]) := hmeet
    rw [stepsMeet_append] at hsplit
    rcases (stepsMeet_singleton _).mp (hsplit.2 sharedDirectory hrun) with ⟨files, hfiles⟩ | hkeeps
    · cases hfiles
    · have hused : UsedIn (twoProducts "data" "data") (sampleVolume "user-service" "data") :=
        ⟨allocateMounted "user-service" "data", by simp [twoProducts], List.mem_cons_self⟩
      have hother : sampleVolume "user-service" "data" ∉
          (StorageAction.deleteVolume (sampleVolume "photo-app" "data") none).volumes :=
        fun hmem => hne (List.mem_singleton.mp hmem).symm
      have hbelongs : sharedDirectory.Belongs sampleStorage (sampleVolume "user-service" "data")
          ["data", "data", "users.db"] := Or.inl (by decide +kernel)
      exact absurd (hkeeps _ rfl _ hused hother _ hbelongs) (by decide +kernel)

end StorageState

end Picloud
