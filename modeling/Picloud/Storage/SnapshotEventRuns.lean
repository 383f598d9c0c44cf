import Picloud.Storage.Isolation
import Picloud.Storage.SnapshotEvents

/-!
# Events that mirror the snapshots

A snapshot is listed when its directory is there. What a call has changed can therefore be said by the
names of these directories, and the replay of the events follows them (`Mirrored`) as long as no copy
stops among the entries of a volume, no deletion fails after others of the same call, both listings of a
call lead to the same deletions, and a text given to `delete_snapshot` reaches the snapshot it names.
-/

namespace Picloud

open Lib StorageState
open StorageEnv (displayPath)

namespace EmittingManager

variable (env : StorageEnv) (cwd : Path) (vs : Set ResourceIri)

/-! ## The condition on a call -/

/-- The snapshots that the retention has to delete. -/
def toRetire (m : EmittingManager) (volumeIri : ResourceIri) (daily : ℕ) : List SnapshotInfo :=
  match m.storage.listSnapshots env volumeIri with
  | .ok snapshots => retired daily snapshots
  | .error _ => []

/-- The directory of the snapshot is there. -/
def IsSnapshot (files : Files) (volumeIri : ResourceIri) (name : String) : Prop :=
  files.get (snapshotPath env volumeIri name) = some .dir

/-- What a listing misses is not needed. -/
def MissesNothing (m : EmittingManager) (volumeIri : ResourceIri) (daily : ℕ) : ListFault → Prop
  | .unreadable _ => True
  | .unseen => toRetire env m volumeIri daily = []
  | .entry name =>
    toRetire env m volumeIri daily = [] ∨ ¬ IsSnapshot env m.storage.files volumeIri name

/-- A path reaches a snapshot of one of the volumes only if the snapshot is at this path, is one of the
volume, and has the text for its path. -/
def Reaches (files : Files) (volumeIri : ResourceIri) (text : String) (path : Path) : Prop :=
  ∀ w ∈ vs, ∀ name, IsSnapshot env files w name →
    (path <+: snapshotPath env w name ∨ (w = volumeIri ∧ displayPath (snapshotPath env w name) = text)) →
      w = volumeIri ∧ snapshotPath env w name = path ∧ displayPath path = text

/-- What fails in a call, if anything, does not come between the snapshots and their events. -/
def Harmless (m : EmittingManager) : SnapshotAction → Prop
  | .createSnapshot volumeIri _ (some (.copy _ (.entries _ _))) =>
    m.storage.files.isPresent (env.volumeDir volumeIri) = false
  | .createSnapshot .. => True
  | .deleteSnapshot volumeIri text fault => fault = some .unseen ∨
      ∀ path, StorageEnv.follow m.storage.files cwd text = some path →
        Reaches env vs m.storage.files volumeIri text path
  | .enforceRetention _ _ none => True
  | .enforceRetention volumeIri daily (some (.listing fault)) => MissesNothing env m volumeIri daily fault
  | .enforceRetention volumeIri daily (some (.innerListing fault)) =>
    MissesNothing env m volumeIri daily fault
  | .enforceRetention volumeIri daily (some (.deletion done _)) =>
    done = 0 ∨ (toRetire env m volumeIri daily).length ≤ done

/-! ## Paths of snapshots -/

variable {env cwd vs}

variable {name name' : String} {w : ResourceIri} {files : Files}

theorem displayPath_snapshotPath {v : ResourceIri} :
    displayPath (snapshotPath env v name) = displayPath (env.snapshotDir v) ++ "/" ++ name := by
  have hne : env.snapshotDir v ≠ [] := by simp [StorageEnv.snapshotDir]
  rw [snapshotPath, displayPath, displayPath, String.intercalate_append_of_ne_nil hne (by simp),
    String.intercalate_singleton, String.append_assoc, String.append_assoc, String.append_assoc]

/-- A text is the path of one snapshot of a volume. -/
theorem displayPath_snapshotPath_inj {v : ResourceIri}
    (h : displayPath (snapshotPath env v name) = displayPath (snapshotPath env v name')) :
    name = name' := by
  rw [displayPath_snapshotPath, displayPath_snapshotPath] at h
  exact String.append_right_inj _ |>.mp h

theorem snapshotPath_inj {v : ResourceIri} (h : snapshotPath env v name = snapshotPath env w name') :
    volumeName v = volumeName w ∧ name = name' := by
  have hrest := List.append_cancel_left (by simpa [snapshotPath, StorageEnv.snapshotDir] using h :
    env.basePath ++ [".snapshots", volumeName v, name] =
      env.basePath ++ [".snapshots", volumeName w, name'])
  simp only [List.cons.injEq, true_and, and_true] at hrest
  exact hrest

theorem snapshotPath_isPrefix {v : ResourceIri}
    (h : snapshotPath env v name <+: snapshotPath env w name') :
    snapshotPath env v name = snapshotPath env w name' :=
  h.eq_of_length (by simp [snapshotPath, StorageEnv.snapshotDir])

/-- Snapshots of different volumes, or with different names, lie apart. -/
theorem not_comparable_snapshotPath {v : ResourceIri}
    (h : volumeName v ≠ volumeName w ∨ name ≠ name') :
    ¬ Comparable (snapshotPath env v name) (snapshotPath env w name') := by
  rintro (hpre | hpre)
  · obtain ⟨hvolume, hname⟩ := snapshotPath_inj (snapshotPath_isPrefix hpre)
    exact h.elim (· hvolume) (· hname)
  · obtain ⟨hvolume, hname⟩ := snapshotPath_inj (snapshotPath_isPrefix hpre)
    exact h.elim (· hvolume.symm) (· hname.symm)

/-- A snapshot and the directory of the snapshots of another volume lie apart. -/
theorem not_comparable_snapshotDir {v : ResourceIri} (h : volumeName v ≠ volumeName w) :
    ¬ Comparable (snapshotPath env v name) (env.snapshotDir w) := by
  rw [snapshotPath, StorageEnv.snapshotDir, StorageEnv.snapshotDir, List.append_assoc,
    comparable_append_iff]
  simp only [List.cons_append, List.nil_append, comparable_cons_iff]
  exact fun hcomparable => h hcomparable.2.1

/-! ## The invariant -/

/-- Snapshots are in a directory. -/
def HasTree (env : StorageEnv) (files : Files) (v : ResourceIri) : Prop :=
  files.get (env.snapshotDir v) = some .dir ∨
    (files.get (env.snapshotDir v) = none ∧ ∀ name, ¬ IsSnapshot env files v name)

/-- The events tell the snapshots that are there. -/
structure Mirrored (env : StorageEnv) (vs : Set ResourceIri) (m : EmittingManager) : Prop where
  functional : m.storage.files.Functional
  tree : ∀ v ∈ vs, HasTree env m.storage.files v
  replayed : ∀ v ∈ vs, ∀ text, text ∈ replaySnapshots v m.events ↔
    ∃ name, IsSnapshot env m.storage.files v name ∧ displayPath (snapshotPath env v name) = text

/-- What is listed: the snapshots, each one once. -/
theorem listSnapshots_eq {s : StorageState} {v : ResourceIri} (hfunctional : s.files.Functional)
    (htree : HasTree env s.files v) :
    ∃ snapshots, s.listSnapshots env v = .ok snapshots ∧
      (snapshots.map SnapshotInfo.snapshotPath).Nodup ∧
      ∀ path, path ∈ snapshots.map SnapshotInfo.snapshotPath ↔
        ∃ name, IsSnapshot env s.files v name ∧ snapshotPath env v name = path := by
  rcases htree with hdir | ⟨hnone, hempty⟩
  · let info := fun name => (⟨v, env.snapshotDir v ++ [name],
      s.files.treeSize contentSize (env.snapshotDir v ++ [name]),
      (env.parseSnapshotName name).getD (env.metadataCreated (env.snapshotDir v ++ [name]))⟩ : SnapshotInfo)
    have hperm : ((newestFirst ((s.files.subdirs (env.snapshotDir v)).map info)).map
        SnapshotInfo.snapshotPath).Perm ((s.files.subdirs (env.snapshotDir v)).map (snapshotPath env v)) := by
      have hsort := (List.mergeSort_perm ((s.files.subdirs (env.snapshotDir v)).map info)
        fun a b => decide (b.createdAt ≤ a.createdAt)).map SnapshotInfo.snapshotPath
      rw [List.map_map] at hsort
      exact hsort
    refine ⟨_, by rw [listSnapshots, hdir], hperm.nodup_iff.mpr ?_, fun path => ?_⟩
    · exact (FileTree.nodup_subdirs hfunctional).map fun name name' h => (snapshotPath_inj h).2
    · rw [hperm.mem_iff, List.mem_map]
      exact exists_congr fun name => and_congr_left' (FileTree.mem_subdirs hfunctional)
  · refine ⟨[], by rw [listSnapshots, hnone], List.nodup_nil, fun path => ⟨fun h => absurd h List.not_mem_nil, ?_⟩⟩
    rintro ⟨name, hname, -⟩
    exact absurd hname (hempty name)

theorem Mirrored.mirrors {m : EmittingManager} (h : Mirrored env vs m) {v : ResourceIri} (hv : v ∈ vs) :
    MirrorsSnapshots env m v := by
  obtain ⟨snapshots, hlist, -, hmem⟩ := listSnapshots_eq h.functional (h.tree v hv)
  refine ⟨snapshots, hlist, fun text => (h.replayed v hv text).trans ?_⟩
  constructor
  · rintro ⟨name, hname, htext⟩
    obtain ⟨snapshot, hsnapshot, hpath⟩ := List.mem_map.mp ((hmem _).mpr ⟨name, hname, rfl⟩)
    exact ⟨snapshot, hsnapshot, hpath ▸ htext⟩
  · rintro ⟨snapshot, hsnapshot, htext⟩
    obtain ⟨name, hname, hpath⟩ := (hmem _).mp (List.mem_map_of_mem hsnapshot)
    exact ⟨name, hname, hpath ▸ htext⟩

/-! ## Replays -/

section Replay

variable {v w : ResourceIri} {events : List SnapshotEvent} {text path : String}

theorem replay_created (size : ℕ) (createdAt : ℤ) :
    text ∈ replaySnapshots v (events ++ [.created w path size createdAt]) ↔
      (w = v ∧ text = path) ∨ text ∈ replaySnapshots v events := by
  rw [replaySnapshots, List.foldl_append, List.foldl_cons, List.foldl_nil, applySnapshotEvent]
  by_cases hw : w = v
  · simp [hw, replaySnapshots]
  · simp [hw, replaySnapshots]

theorem replay_failed (reason : String) :
    replaySnapshots v (events ++ [.failed w reason]) = replaySnapshots v events := by
  rw [replaySnapshots, List.foldl_append]
  rfl

theorem replay_deleted {paths : List String} :
    text ∈ replaySnapshots v (events ++ paths.map (.deleted w)) ↔
      text ∈ replaySnapshots v events ∧ ¬ (w = v ∧ text ∈ paths) := by
  induction paths generalizing events with
  | nil => simp
  | cons path paths ih =>
    rw [List.map_cons, ← List.singleton_append, ← List.append_assoc, ih, replaySnapshots,
      List.foldl_append, List.foldl_cons, List.foldl_nil, applySnapshotEvent, ← replaySnapshots]
    by_cases hw : w = v
    · simp [hw, and_assoc]
    · simp [hw]

end Replay

/-! ## Changes of the files -/

variable {m : EmittingManager} {v : ResourceIri}

/-- The snapshots and the events tell the same as before. -/
theorem Mirrored.of_same (h : Mirrored env vs m) {events : List SnapshotEvent}
    (volumes : Assoc String VolumeRecord) (hfunctional : files.Functional)
    (htree : ∀ w ∈ vs, HasTree env files w)
    (hsame : ∀ w ∈ vs, ∀ name, IsSnapshot env files w name ↔ IsSnapshot env m.storage.files w name)
    (hevents : ∀ w, replaySnapshots w events = replaySnapshots w m.events) :
    Mirrored env vs ⟨⟨files, volumes⟩, events⟩ := by
  refine ⟨hfunctional, htree, fun w hw text => ?_⟩
  rw [hevents w, h.replayed w hw text]
  exact exists_congr fun name => and_congr_left' (hsame w hw name).symm

/-- A snapshot is made, over an old one or not. -/
theorem Mirrored.created (h : Mirrored env vs m) (hv : v ∈ vs)
    (hnames : ∀ w ∈ vs, w ≠ v → volumeName v ≠ volumeName w)
    (hcopy : m.storage.files.copyTree (env.volumeDir v) (snapshotPath env v name) = some files)
    (volumes : Assoc String VolumeRecord) (size : ℕ) (createdAt : ℤ) :
    Mirrored env vs ⟨⟨files, volumes⟩,
      m.events ++ [.created v (displayPath (snapshotPath env v name)) size createdAt]⟩ := by
  obtain ⟨hkeeps, hdirs⟩ := FileTree.copyTree_keeps hcopy
  have hothers : ∀ w ∈ vs, ∀ name', (w ≠ v ∨ name' ≠ name) →
      (IsSnapshot env files w name' ↔ IsSnapshot env m.storage.files w name') := by
    intro w hw name' hne
    rw [IsSnapshot, IsSnapshot, FileTree.copyTree_frame hcopy]
    refine not_comparable_snapshotPath ?_
    rcases hne with hne | hne
    · exact Or.inl (hnames w hw hne)
    · exact Or.inr hne.symm
  have hmade : IsSnapshot env files v name := hdirs _ List.prefix_rfl
  refine ⟨hkeeps.functional h.functional, fun w hw => ?_, fun w hw text => ?_⟩
  · by_cases hwv : w = v
    · subst hwv
      exact Or.inl (hdirs _ (List.prefix_append _ _))
    · have hdir := FileTree.copyTree_frame hcopy (not_comparable_snapshotDir (hnames w hw hwv))
      refine (h.tree w hw).imp (fun hsome => hdir.trans hsome) fun hnone => ⟨hdir.trans hnone.1, ?_⟩
      exact fun name' hname' => hnone.2 name' ((hothers w hw name' (Or.inl hwv)).mp hname')
  · rw [replay_created, h.replayed w hw text]
    by_cases hwv : w = v
    · subst hwv
      constructor
      · rintro (⟨-, rfl⟩ | ⟨name', hname', htext⟩)
        · exact ⟨name, hmade, rfl⟩
        · exact ⟨name', hkeeps.dirs _ hname', htext⟩
      · rintro ⟨name', hname', rfl⟩
        by_cases hne : name' = name
        · exact Or.inl ⟨rfl, hne ▸ rfl⟩
        · exact Or.inr ⟨name', (hothers w hw name' (Or.inr hne)).mp hname', rfl⟩
    · rw [or_iff_right fun heq => hwv heq.1.symm]
      exact exists_congr fun name' => and_congr_left' (hothers w hw name' (Or.inl hwv)).symm

/-- Snapshots are gone, and the events say so. -/
theorem Mirrored.deleted (h : Mirrored env vs m) (texts : List String)
    (volumes : Assoc String VolumeRecord) (hfunctional : files.Functional)
    (htree : ∀ w ∈ vs, HasTree env files w)
    (hgone : ∀ w ∈ vs, ∀ name, IsSnapshot env files w name ↔ IsSnapshot env m.storage.files w name ∧
      ¬ (v = w ∧ displayPath (snapshotPath env w name) ∈ texts)) :
    Mirrored env vs ⟨⟨files, volumes⟩, m.events ++ texts.map (.deleted v)⟩ := by
  refine ⟨hfunctional, htree, fun w hw text => ?_⟩
  rw [replay_deleted, h.replayed w hw text]
  constructor
  · rintro ⟨⟨name, hname, rfl⟩, hkept⟩
    exact ⟨name, (hgone w hw name).mpr ⟨hname, hkept⟩, rfl⟩
  · rintro ⟨name, hname, rfl⟩
    obtain ⟨hbefore, hkept⟩ := (hgone w hw name).mp hname
    exact ⟨⟨name, hbefore, rfl⟩, hkept⟩

/-! ## Deletions -/

section Deletion

variable {s s' : StorageState} {text : String} {path : Path}

/-- What a deletion does. -/
theorem deleteSnapshotWith_cases {fault : Option DeleteFault} {r : Except StorageError Unit}
    (h : s.deleteSnapshotWith v text path fault = some (r, s')) :
    (r = .ok () ∧ fault = none ∧ s' = { s with files := s.files.removeTree path }) ∨
      ∃ e, r = .error e ∧ (s' = s ∨ ∃ message kept, fault = some (.removal message kept) ∧
        s' = { s with files := s.files.filter fun e => ¬ path <+: e.1 ∨ e.1 = path ∨ kept e.1 }) := by
  cases fault with
  | none =>
    rw [deleteSnapshotWith, StorageState.deleteSnapshot] at h
    split at h
    · split at h
      · cases h
        exact Or.inl ⟨rfl, rfl, rfl⟩
      · cases h
    · cases h
      exact Or.inr ⟨_, rfl, Or.inl rfl⟩
  | some fault =>
    cases fault with
    | unseen =>
      cases h
      exact Or.inr ⟨_, rfl, Or.inl rfl⟩
    | removal message kept =>
      rw [deleteSnapshotWith] at h
      split at h
      · cases h
        exact Or.inr ⟨_, rfl, Or.inr ⟨message, kept, rfl, rfl⟩⟩
      · cases h
        exact Or.inr ⟨_, rfl, Or.inl rfl⟩

/-- A directory that is there is deleted when nothing fails. -/
theorem deleteSnapshotWith_none (hdir : s.files.get path = some .dir) :
    s.deleteSnapshotWith v text path none =
      some (.ok (), { s with files := s.files.removeTree path }) := by
  have hpresent : s.files.isPresent path = true := by rw [FileTree.isPresent, hdir]; rfl
  have hisDir : s.files.isDir path = true := by rw [FileTree.isDir, hdir, decide_eq_true rfl]
  rw [deleteSnapshotWith, StorageState.deleteSnapshot, if_pos hpresent, if_pos hisDir]

/-- Snapshots that lie apart are all deleted, when nothing fails before the last one. -/
theorem deleteSnapshotsWith_eq {snapshots : List SnapshotInfo} {fault : Option (ℕ × DeleteFault)}
    (hdirs : ∀ snapshot ∈ snapshots, s.files.get snapshot.snapshotPath = some .dir)
    (hapart : (snapshots.map SnapshotInfo.snapshotPath).Pairwise fun p q => ¬ p <+: q)
    (hfault : ∀ done f, fault = some (done, f) → snapshots.length ≤ done) :
    ∃ files, deleteSnapshotsWith v s snapshots fault = some (.ok (), { s with files := files }) ∧
      (s.files.Functional → FileTree.Functional files) ∧
      ∀ q, FileTree.get files q =
        if ∃ p ∈ snapshots.map SnapshotInfo.snapshotPath, p <+: q then none else s.files.get q := by
  induction snapshots generalizing s fault with
  | nil => exact ⟨s.files, by rw [deleteSnapshotsWith], id, fun q => by simp⟩
  | cons snapshot rest ih =>
    obtain ⟨hfirst, hrest⟩ := List.forall_mem_cons.mp hdirs
    obtain ⟨hnot, hapart⟩ := List.pairwise_cons.mp hapart
    have hstill : ∀ snapshot' ∈ rest,
        (s.files.removeTree snapshot.snapshotPath).get snapshot'.snapshotPath = some .dir := by
      intro snapshot' hmem
      rw [FileTree.get_removeTree, if_neg (hnot _ (List.mem_map_of_mem hmem))]
      exact hrest snapshot' hmem
    have hgo : ∀ later : Option (ℕ × DeleteFault),
        (∀ done f, later = some (done, f) → rest.length ≤ done) →
        ∃ files, deleteSnapshotsWith v { s with files := s.files.removeTree snapshot.snapshotPath } rest
            later = some (.ok (), { s with files := files }) ∧
          (s.files.Functional → FileTree.Functional files) ∧
          ∀ q, FileTree.get files q = if ∃ p ∈ (snapshot :: rest).map SnapshotInfo.snapshotPath, p <+: q
            then none else s.files.get q := by
      intro later hlater
      obtain ⟨files, heq, hfunctional, hget⟩ :=
        ih (s := { s with files := s.files.removeTree snapshot.snapshotPath }) hstill hapart hlater
      refine ⟨files, heq, fun hf => hfunctional (FileTree.functional_filter _ hf), fun q => ?_⟩
      rw [hget q, FileTree.get_removeTree]
      by_cases hq : snapshot.snapshotPath <+: q
      · rw [if_pos hq, ite_self, if_pos ⟨_, List.mem_map_of_mem List.mem_cons_self, hq⟩]
      · rw [if_neg hq]
        refine if_congr ?_ rfl rfl
        rw [List.map_cons, List.exists_mem_cons_iff, or_iff_right hq]
    match fault with
    | none =>
      rw [deleteSnapshotsWith, deleteSnapshotWith_none hfirst]
      exact hgo none nofun
    | some (0, f) => exact absurd (hfault 0 f rfl) (by simp)
    | some (done + 1, f) =>
      rw [deleteSnapshotsWith, deleteSnapshotWith_none hfirst]
      refine hgo (some (done, f)) fun done' f' heq => ?_
      have hlength := hfault (done + 1) f rfl
      cases heq
      rw [List.length_cons] at hlength
      omega

/-- When the first deletion fails, that is all. -/
theorem deleteSnapshotsWith_first {snapshots : List SnapshotInfo} {f : DeleteFault}
    {r : Except StorageError Unit} (hne : snapshots ≠ [])
    (h : deleteSnapshotsWith v s snapshots (some (0, f)) = some (r, s')) :
    ∃ snapshot ∈ snapshots, ∃ e, r = .error e ∧ s.deleteSnapshotWith v
      (displayPath snapshot.snapshotPath) snapshot.snapshotPath (some f) = some (.error e, s') := by
  match snapshots with
  | [] => exact absurd rfl hne
  | snapshot :: rest =>
    rw [deleteSnapshotsWith] at h
    obtain ⟨⟨r', s₁⟩, hfirst, hrest⟩ := Option.bind_eq_some_iff.mp h
    rcases deleteSnapshotWith_cases hfirst with ⟨-, hfault, -⟩ | ⟨e, rfl, -⟩
    · cases hfault
    · cases hrest
      exact ⟨snapshot, List.mem_cons_self, e, rfl, hfirst⟩

/-- A removal that fails, of what holds no other snapshot. -/
theorem Mirrored.of_failed (h : Mirrored env vs m) {kept : Path → Bool}
    (hreaches : ∀ w ∈ vs, ∀ name, IsSnapshot env m.storage.files w name →
      path <+: snapshotPath env w name → snapshotPath env w name = path) :
    Mirrored env vs ⟨⟨m.storage.files.filter fun e => ¬ path <+: e.1 ∨ e.1 = path ∨ kept e.1,
      m.storage.volumes⟩, m.events⟩ := by
  have hget : ∀ q, FileTree.get (m.storage.files.filter fun e => ¬ path <+: e.1 ∨ e.1 = path ∨ kept e.1) q =
      if ¬ path <+: q ∨ q = path ∨ kept q then m.storage.files.get q else none := by
    intro q
    rw [FileTree.get, Assoc.get_filter fun q => decide (¬ path <+: q ∨ q = path ∨ kept q)]
    simp only [decide_eq_true_eq]
    rfl
  have hsame : ∀ w ∈ vs, ∀ name, IsSnapshot env (m.storage.files.filter fun e =>
      ¬ path <+: e.1 ∨ e.1 = path ∨ kept e.1) w name ↔ IsSnapshot env m.storage.files w name := by
    intro w hw name
    rw [IsSnapshot, hget]
    constructor
    · intro hsome
      split at hsome
      · exact hsome
      · cases hsome
    · intro hname
      rw [if_pos, hname]
      by_cases hpre : path <+: snapshotPath env w name
      · exact Or.inr (Or.inl (hreaches w hw name hname hpre))
      · exact Or.inl hpre
  refine h.of_same _ (FileTree.functional_filter _ h.functional) (fun w hw => ?_) hsame fun _ => rfl
  by_cases hkept : ¬ path <+: env.snapshotDir w ∨ env.snapshotDir w = path ∨ kept (env.snapshotDir w)
  · have hdir := (hget (env.snapshotDir w)).trans (if_pos hkept)
    refine (h.tree w hw).imp (fun hsome => hdir.trans hsome) fun hnone => ⟨hdir.trans hnone.1, ?_⟩
    exact fun name hname => hnone.2 name ((hsame w hw name).mp hname)
  · -- The directory of the snapshots is below the path, so none of them can be at the path.
    refine Or.inr ⟨(hget _).trans (if_neg hkept), fun name hname => ?_⟩
    have hpre : path <+: env.snapshotDir w := not_not.mp fun hne => hkept (Or.inl hne)
    have hpath := hreaches w hw name ((hsame w hw name).mp hname) (hpre.trans (List.prefix_append _ _))
    have hlength := hpre.length_le
    rw [← hpath, snapshotPath, List.length_append, List.length_singleton] at hlength
    omega

end Deletion

/-! ## The retention -/

section Retention

variable {daily : ℕ}

theorem retired_eq_nil {snapshots : List SnapshotInfo} :
    retired daily snapshots = [] ↔ daily = 0 ∨ snapshots.length ≤ daily := by
  rw [retired]
  split
  · next hsome =>
    rw [List.drop_eq_nil_iff, newestFirst, List.length_mergeSort]
    omega
  · next hnone => exact iff_of_true rfl (by omega)

theorem retired_sublist (snapshots : List SnapshotInfo) :
    (retired daily snapshots).Sublist (newestFirst snapshots) := by
  rw [retired]
  split
  · exact List.drop_sublist daily _
  · exact List.nil_sublist _

/-- What the manager below deletes. -/
theorem enforceRetentionWith_eq (s : StorageState) (snapshots : List SnapshotInfo)
    (deletion : Option (ℕ × DeleteFault)) :
    s.enforceRetentionWith v snapshots daily deletion =
      (deleteSnapshotsWith v s (retired daily snapshots) deletion).map fun
        | (.error e, s) => (.error e, s)
        | (.ok (), s) => (.ok (retired daily snapshots).length, s) := by
  by_cases hnil : daily = 0 ∨ snapshots.length ≤ daily
  · have hretired := retired_eq_nil.mpr hnil
    simp only [hretired, deleteSnapshotsWith, StorageState.enforceRetentionWith, if_pos hnil, ite_self,
      Option.map_some, List.length_nil]
  · have hne : snapshots.isEmpty = false := by
      cases snapshots with
      | nil => exact absurd (Or.inr (Nat.zero_le daily)) hnil
      | cons snapshot rest => rfl
    have hretired : retired daily snapshots = (newestFirst snapshots).drop daily :=
      if_pos (by omega)
    rw [StorageState.enforceRetentionWith, hretired]
    exact (if_neg (by rw [hne]; exact Bool.false_ne_true)).trans (if_neg hnil)

/-- Both listings lead to the same deletions. -/
theorem retired_of_missesNothing (h : Mirrored env vs m) (hv : v ∈ vs) {fault : Option ListFault}
    (hfault : ∀ f, fault = some f → MissesNothing env m v daily f) {snapshots : List SnapshotInfo}
    (hlist : m.storage.listSnapshotsWith env v fault = .ok snapshots) :
    retired daily snapshots = toRetire env m v daily := by
  obtain ⟨all, hall, -, hmem⟩ := listSnapshots_eq h.functional (h.tree v hv)
  have hretire : toRetire env m v daily = retired daily all := by rw [toRetire, hall]
  have hempty : retired daily ([] : List SnapshotInfo) = [] := retired_eq_nil.mpr (Or.inr (Nat.zero_le _))
  match fault with
  | none =>
    rw [listSnapshotsWith, hall] at hlist
    cases hlist
    exact hretire.symm
  | some .unseen =>
    cases hlist
    exact hempty.trans (hfault _ rfl).symm
  | some (.unreadable message) =>
    rw [listSnapshotsWith] at hlist
    split at hlist
    · cases hlist
    · next habsent =>
      cases hlist
      rw [FileTree.isPresent, Bool.not_eq_true, Option.isSome_eq_false_iff, Option.isNone_iff_eq_none]
        at habsent
      rw [hretire]
      rw [listSnapshots, habsent] at hall
      cases hall
      rfl
  | some (.entry name) =>
    rw [listSnapshotsWith, hall] at hlist
    cases hlist
    rcases hfault _ rfl with hnil | hnot
    · rw [hnil]
      rw [hretire, retired_eq_nil] at hnil
      exact retired_eq_nil.mpr (hnil.imp_right (List.length_filter_le _ _).trans)
    · rw [hretire]
      refine congrArg (EmittingManager.retired daily) (List.filter_eq_self.mpr fun snapshot hsnapshot => ?_)
      refine decide_eq_true fun hpath => ?_
      obtain ⟨name', hname', hpath'⟩ := (hmem _).mp (List.mem_map_of_mem hsnapshot)
      obtain ⟨-, rfl⟩ := snapshotPath_inj (hpath'.trans hpath)
      exact hnot hname'

variable (daily) in
/-- The deletions are of snapshots, each one once. -/
theorem toRetire_paths (h : Mirrored env vs m) (hv : v ∈ vs) :
    ((toRetire env m v daily).map SnapshotInfo.snapshotPath).Nodup ∧
      ∀ snapshot ∈ toRetire env m v daily,
        ∃ name, IsSnapshot env m.storage.files v name ∧ snapshotPath env v name = snapshot.snapshotPath := by
  obtain ⟨all, hall, hnodup, hmem⟩ := listSnapshots_eq h.functional (h.tree v hv)
  have hretire : toRetire env m v daily = retired daily all := by rw [toRetire, hall]
  have hperm : (newestFirst all).Perm all := List.mergeSort_perm _ _
  rw [hretire]
  constructor
  · exact ((hperm.map _).nodup_iff.mpr hnodup).sublist ((retired_sublist all).map _)
  · intro snapshot hsnapshot
    exact (hmem _).mp (List.mem_map_of_mem (hperm.mem_iff.mp ((retired_sublist all).subset hsnapshot)))

/-- All that is to be retired is deleted, and the events say so. -/
theorem Mirrored.retired (h : Mirrored env vs m) (hv : v ∈ vs)
    (hnames : ∀ w ∈ vs, w ≠ v → volumeName v ≠ volumeName w) {files : Files}
    (volumes : Assoc String VolumeRecord) (hfunctional : files.Functional)
    (hget : ∀ q, files.get q =
      if ∃ p ∈ (toRetire env m v daily).map SnapshotInfo.snapshotPath, p <+: q then none
      else m.storage.files.get q) :
    Mirrored env vs ⟨⟨files, volumes⟩, m.events ++
      ((toRetire env m v daily).map fun snapshot => displayPath snapshot.snapshotPath).map (.deleted v)⟩ := by
  obtain ⟨-, hpaths⟩ := toRetire_paths daily h hv
  have hgone : ∀ w ∈ vs, ∀ name, IsSnapshot env files w name ↔ IsSnapshot env m.storage.files w name ∧
      ¬ (v = w ∧ displayPath (snapshotPath env w name) ∈
        (toRetire env m v daily).map fun snapshot => displayPath snapshot.snapshotPath) := by
    intro w hw name
    have hiff : (∃ p ∈ (toRetire env m v daily).map SnapshotInfo.snapshotPath,
        p <+: snapshotPath env w name) ↔ (v = w ∧ displayPath (snapshotPath env w name) ∈
          (toRetire env m v daily).map fun snapshot => displayPath snapshot.snapshotPath) := by
      constructor
      · rintro ⟨p, hp, hpre⟩
        obtain ⟨snapshot, hsnapshot, rfl⟩ := List.mem_map.mp hp
        obtain ⟨name', -, hpath⟩ := hpaths snapshot hsnapshot
        have heq := snapshotPath_isPrefix (hpath ▸ hpre)
        have hwv : v = w := by
          by_contra hne
          exact hnames w hw (Ne.symm hne) (snapshotPath_inj heq).1
        refine ⟨hwv, List.mem_map.mpr ⟨snapshot, hsnapshot, ?_⟩⟩
        rw [← hpath, heq]
      · rintro ⟨rfl, hmem⟩
        obtain ⟨snapshot, hsnapshot, htext⟩ := List.mem_map.mp hmem
        obtain ⟨name', -, hpath⟩ := hpaths snapshot hsnapshot
        rw [← hpath] at htext
        refine ⟨_, List.mem_map_of_mem hsnapshot, ?_⟩
        rw [← hpath, displayPath_snapshotPath_inj htext]
    rw [IsSnapshot, hget, ← hiff]
    by_cases hpre : ∃ p ∈ (toRetire env m v daily).map SnapshotInfo.snapshotPath,
        p <+: snapshotPath env w name
    · rw [if_pos hpre]
      exact iff_of_false nofun fun hboth => hboth.2 hpre
    · rw [if_neg hpre, IsSnapshot]
      exact (and_iff_left hpre).symm
  refine h.deleted _ volumes hfunctional (fun w hw => ?_) hgone
  have hdir : files.get (env.snapshotDir w) = m.storage.files.get (env.snapshotDir w) := by
    rw [hget, if_neg]
    rintro ⟨p, hp, hpre⟩
    obtain ⟨snapshot, hsnapshot, rfl⟩ := List.mem_map.mp hp
    obtain ⟨name, -, hpath⟩ := hpaths snapshot hsnapshot
    have hlength := hpre.length_le
    rw [← hpath] at hlength
    simp [snapshotPath, StorageEnv.snapshotDir] at hlength
  refine (h.tree w hw).imp (fun hsome => hdir.trans hsome) fun hnone => ⟨hdir.trans hnone.1, ?_⟩
  exact fun name hname => hnone.2 name ((hgone w hw name).mp hname).1

/-- A call of the retention. -/
theorem Mirrored.enforced (h : Mirrored env vs m) (hv : v ∈ vs)
    (hnames : ∀ w ∈ vs, w ≠ v → volumeName v ≠ volumeName w) {listing innerListing : Option ListFault}
    {deletion : Option (ℕ × DeleteFault)}
    (hlisting : ∀ f, listing = some f → MissesNothing env m v daily f)
    (hinner : ∀ f, innerListing = some f → MissesNothing env m v daily f)
    (hdeletion : ∀ done f, deletion = some (done, f) → done = 0 ∨ (toRetire env m v daily).length ≤ done)
    {r : Except StorageError ℕ} {m' : EmittingManager}
    (hcall : m.enforceRetentionWith env v daily listing innerListing deletion = some (r, m')) :
    Mirrored env vs m' := by
  rw [EmittingManager.enforceRetentionWith] at hcall
  split at hcall
  · cases hcall
    exact h
  · next outer houter =>
    dsimp only at hcall
    split at hcall
    · cases hcall
      exact h
    · next inner hinnerList =>
      rw [enforceRetentionWith_eq, retired_of_missesNothing h hv hlisting houter,
        retired_of_missesNothing h hv hinner hinnerList] at hcall
      obtain ⟨hnodup, hpaths⟩ := toRetire_paths daily h hv
      by_cases hfirst : (∃ f, deletion = some (0, f)) ∧ toRetire env m v daily ≠ []
      · obtain ⟨⟨f, rfl⟩, hne⟩ := hfirst
        obtain ⟨⟨r₁, s₁⟩, hall, heq⟩ := Option.map_eq_some_iff.mp hcall
        obtain ⟨⟨r₂, s₂⟩, hdelete, heq₂⟩ := Option.map_eq_some_iff.mp hall
        obtain ⟨snapshot, hsnapshot, e, rfl, hone⟩ := deleteSnapshotsWith_first hne hdelete
        cases heq₂
        cases heq
        rcases deleteSnapshotWith_cases hone with ⟨hok, -⟩ | ⟨e', -, rfl | ⟨message, kept, -, rfl⟩⟩
        · cases hok
        · exact h
        · refine h.of_failed fun w hw name hname hpre => ?_
          obtain ⟨name', -, hpath⟩ := hpaths snapshot hsnapshot
          rw [← hpath] at hpre ⊢
          exact (snapshotPath_isPrefix hpre).symm
      · have hdirs : ∀ snapshot ∈ toRetire env m v daily,
            m.storage.files.get snapshot.snapshotPath = some .dir := by
          intro snapshot hsnapshot
          obtain ⟨name, hname, hpath⟩ := hpaths snapshot hsnapshot
          exact hpath ▸ hname
        have hapart : ((toRetire env m v daily).map SnapshotInfo.snapshotPath).Pairwise
            fun p q => ¬ p <+: q := by
          refine hnodup.imp_of_mem fun {p q} hp hq hne hpre => hne ?_
          obtain ⟨snapshot, hsnapshot, rfl⟩ := List.mem_map.mp hp
          obtain ⟨snapshot', hsnapshot', rfl⟩ := List.mem_map.mp hq
          obtain ⟨name, -, hpath⟩ := hpaths snapshot hsnapshot
          obtain ⟨name', -, hpath'⟩ := hpaths snapshot' hsnapshot'
          rw [← hpath, ← hpath'] at hpre ⊢
          exact snapshotPath_isPrefix hpre
        have hlate : ∀ done f, deletion = some (done, f) → (toRetire env m v daily).length ≤ done := by
          intro done f heq
          rcases hdeletion done f heq with rfl | hlate
          · by_contra hlong
            refine hfirst ⟨⟨f, heq⟩, fun hnil => hlong ?_⟩
            rw [hnil, List.length_nil]
          · exact hlate
        obtain ⟨files, hall, hfunctional, hget⟩ := deleteSnapshotsWith_eq (v := v) hdirs hapart hlate
        rw [hall] at hcall
        cases hcall
        exact h.retired hv hnames _ (hfunctional h.functional) hget

end Retention

/-! ## Calls -/

/-- What creating a snapshot does. -/
theorem createSnapshotWith_cases {s s' : StorageState} {atTime : ℤ} {fault : Option CreateFault}
    {r : Except StorageError SnapshotInfo}
    (h : s.createSnapshotWith env v atTime fault = some (r, s')) :
    (∃ e, r = .error e ∧ s' = s) ∨
    (∃ name size createdAt files, r = .ok ⟨v, snapshotPath env v name, size, createdAt⟩ ∧
      s.files.copyTree (env.volumeDir v) (snapshotPath env v name) = some files ∧
      s' = { s with files := files }) ∨
    ∃ e name message stop files, r = .error e ∧ fault = some (.copy message stop) ∧
      s.files.isPresent (env.volumeDir v) = true ∧
      s.files.copyTreeUntil (env.volumeDir v) (snapshotPath env v name) stop = some files ∧
      s' = { s with files := files } := by
  match fault with
  | none =>
    rw [createSnapshotWith, createSnapshotAt] at h
    split at h
    · obtain ⟨files, hcopy, heq⟩ := Option.map_eq_some_iff.mp h
      cases heq
      exact Or.inr (Or.inl ⟨_, _, _, files, rfl, hcopy, rfl⟩)
    · cases h
      exact Or.inl ⟨_, rfl, rfl⟩
  | some .volumeUnseen =>
    cases h
    exact Or.inl ⟨_, rfl, rfl⟩
  | some (.pathUnseen tries) =>
    rw [createSnapshotWith] at h
    split at h
    · obtain ⟨files, hcopy, heq⟩ := Option.map_eq_some_iff.mp h
      cases heq
      exact Or.inr (Or.inl ⟨_, _, _, files, rfl, hcopy, rfl⟩)
    · cases h
      exact Or.inl ⟨_, rfl, rfl⟩
  | some (.copy message stop) =>
    rw [createSnapshotWith] at h
    split at h
    · next hpresent =>
      obtain ⟨files, hcopy, heq⟩ := Option.map_eq_some_iff.mp h
      cases heq
      exact Or.inr (Or.inr ⟨_, _, message, stop, files, rfl, rfl, hpresent, hcopy, rfl⟩)
    · cases h
      exact Or.inl ⟨_, rfl, rfl⟩

/-- A copy that stops before the directory of the snapshot is made. -/
theorem Mirrored.of_directories (h : Mirrored env vs m) {made : ℕ}
    (hcopy : m.storage.files.copyTreeUntil (env.volumeDir v) (snapshotPath env v name)
      (.directories made) = some files) (reason : String) :
    Mirrored env vs ⟨{ m.storage with files := files }, m.events ++ [.failed v reason]⟩ := by
  have hsame : ∀ w ∈ vs, ∀ name', IsSnapshot env files w name' ↔
      IsSnapshot env m.storage.files w name' := by
    intro w _ name'
    rw [IsSnapshot, IsSnapshot, FileTree.directories_frame hcopy]
    rintro ⟨hpre, hne⟩
    exact hne (snapshotPath_isPrefix hpre)
  refine h.of_same _ ((FileTree.directories_keeps hcopy).functional h.functional) (fun w hw => ?_) hsame
    fun w => replay_failed reason
  rcases FileTree.get_directories hcopy (env.snapshotDir w) with hdir | hdir
  · refine (h.tree w hw).imp (fun hsome => hdir.trans hsome) fun hnone => ⟨hdir.trans hnone.1, ?_⟩
    exact fun name' hname' => hnone.2 name' ((hsame w hw name').mp hname')
  · exact Or.inl hdir

/-- The directory that a text leads to is deleted, and it holds no other snapshot. -/
theorem Mirrored.removed (h : Mirrored env vs m) {text : String} {path : Path}
    (hreaches : Reaches env vs m.storage.files v text path) :
    Mirrored env vs ⟨{ m.storage with files := m.storage.files.removeTree path },
      m.events ++ [.deleted v text]⟩ := by
  refine h.deleted (v := v) [text] m.storage.volumes
    (FileTree.functional_filter _ h.functional) (fun w hw => ?_) fun w hw name => ?_
  · by_cases hpre : path <+: env.snapshotDir w
    · refine Or.inr ⟨by rw [FileTree.get_removeTree, if_pos hpre], fun name hname => ?_⟩
      have hbelow : path <+: snapshotPath env w name := hpre.trans (List.prefix_append _ _)
      rw [IsSnapshot, FileTree.get_removeTree, if_pos hbelow] at hname
      cases hname
    · rw [HasTree, FileTree.get_removeTree, if_neg hpre]
      refine (h.tree w hw).imp_right fun hnone => ⟨hnone.1, fun name hname => hnone.2 name ?_⟩
      rw [IsSnapshot, FileTree.get_removeTree] at hname
      split at hname
      · cases hname
      · exact hname
  · rw [IsSnapshot, FileTree.get_removeTree, List.mem_singleton]
    by_cases hname : IsSnapshot env m.storage.files w name
    · have hiff : path <+: snapshotPath env w name ↔
          v = w ∧ displayPath (snapshotPath env w name) = text := by
        constructor
        · intro hpre
          obtain ⟨hw, hpath, htext⟩ := hreaches w hw name hname (Or.inl hpre)
          exact ⟨hw.symm, hpath ▸ htext⟩
        · rintro ⟨hw', htext⟩
          exact (hreaches w hw name hname (Or.inr ⟨hw'.symm, htext⟩)).2.1 ▸ List.prefix_rfl
      rw [← hiff]
      by_cases hpre : path <+: snapshotPath env w name
      · rw [if_pos hpre]
        exact iff_of_false nofun fun hboth => hboth.2 hpre
      · rw [if_neg hpre, IsSnapshot]
        exact (and_iff_left hpre).symm
    · refine iff_of_false (fun hget => ?_) fun hboth => hname hboth.1
      split at hget
      · cases hget
      · exact hname hget

/-- A call whose failures are harmless. -/
theorem Mirrored.step (hnames : ∀ v ∈ vs, ∀ w ∈ vs, w ≠ v → volumeName v ≠ volumeName w)
    (h : Mirrored env vs m) {a : SnapshotAction} (ha : a.volumeIri ∈ vs)
    (hharmless : Harmless env cwd vs m a) {m' : EmittingManager} (hstep : m.step env cwd a = some m') :
    Mirrored env vs m' := by
  cases a with
  | createSnapshot v atTime fault =>
    obtain ⟨⟨r, m₁⟩, hcall, rfl⟩ := Option.map_eq_some_iff.mp hstep
    obtain ⟨⟨r₁, s₁⟩, hcreate, heq⟩ := Option.map_eq_some_iff.mp hcall
    rcases createSnapshotWith_cases hcreate with ⟨e, rfl, rfl⟩ |
      ⟨name, size, createdAt, files, rfl, hcopy, rfl⟩ |
      ⟨e, name, message, stop, files, rfl, rfl, hpresent, hcopy, rfl⟩
    · cases heq
      exact h.of_same _ h.functional h.tree (fun _ _ _ => Iff.rfl) fun w => replay_failed e.text
    · cases heq
      exact h.created ha (hnames v ha) hcopy _ size createdAt
    · cases heq
      cases stop with
      | directories made => exact h.of_directories hcopy e.text
      | entries copied cut => exact absurd (hharmless.symm.trans hpresent) Bool.false_ne_true
  | deleteSnapshot v text fault =>
    obtain ⟨⟨r, m₁⟩, hcall, rfl⟩ := Option.map_eq_some_iff.mp hstep
    rw [deleteSnapshot] at hcall
    split at hcall
    · cases hcall
      exact h
    · next path hpath =>
      obtain ⟨⟨r₁, s₁⟩, hdelete, heq⟩ := Option.map_eq_some_iff.mp hcall
      rcases deleteSnapshotWith_cases hdelete with ⟨rfl, rfl, rfl⟩ |
        ⟨e, rfl, rfl | ⟨message, kept, rfl, rfl⟩⟩
      · cases heq
        exact h.removed (hharmless.resolve_left nofun path hpath)
      · cases heq
        exact h
      · cases heq
        refine h.of_failed fun w hw name hname hpre => ?_
        exact (hharmless.resolve_left nofun path hpath w hw name hname (Or.inl hpre)).2.1
  | enforceRetention v daily fault =>
    obtain ⟨⟨r, m₁⟩, hcall, rfl⟩ := Option.map_eq_some_iff.mp hstep
    have hseen : ∀ f, (none : Option ListFault) = some f → MissesNothing env m v daily f := nofun
    have hdone : ∀ done f, (none : Option (ℕ × DeleteFault)) = some (done, f) →
        done = 0 ∨ (toRetire env m v daily).length ≤ done := nofun
    match fault with
    | none => exact h.enforced ha (hnames v ha) hseen hseen hdone hcall
    | some (.listing fault) =>
      have hmissed : ∀ f, some fault = some f → MissesNothing env m v daily f := by
        rintro f ⟨⟩
        exact hharmless
      exact h.enforced ha (hnames v ha) hmissed hseen hdone hcall
    | some (.innerListing fault) =>
      have hmissed : ∀ f, some fault = some f → MissesNothing env m v daily f := by
        rintro f ⟨⟩
        exact hharmless
      exact h.enforced ha (hnames v ha) hseen hmissed hdone hcall
    | some (.deletion done fault) =>
      have hlate : ∀ done' f, some (done, fault) = some (done', f) →
          done' = 0 ∨ (toRetire env m v daily).length ≤ done' := by
        rintro done' f ⟨⟩
        exact hharmless
      exact h.enforced ha (hnames v ha) hseen hseen hlate hcall

/-! ## Runs -/

/-- The volumes of the calls. -/
def volumesOf (calls : List SnapshotAction) : Set ResourceIri := { v | ∃ a ∈ calls, a.volumeIri = v }

/-- No snapshot has been made. -/
def NoSnapshots (env : StorageEnv) (files : Files) : Prop :=
  files.Functional ∧ ∀ q, env.basePath ++ [".snapshots"] <+: q → files.get q = none

theorem mirrored_of_noSnapshots {storage : StorageState} (h : NoSnapshots env storage.files) :
    Mirrored env vs ⟨storage, []⟩ := by
  have hdir : ∀ w, storage.files.get (env.snapshotDir w) = none := by
    intro w
    refine h.2 _ ⟨[volumeName w], ?_⟩
    rw [StorageEnv.snapshotDir, List.append_assoc]
    rfl
  have hnone : ∀ w name, ¬ IsSnapshot env storage.files w name := by
    intro w name hname
    rw [IsSnapshot, h.2 _ ⟨[volumeName w, name], by simp [snapshotPath, StorageEnv.snapshotDir]⟩] at hname
    cases hname
  refine ⟨h.1, fun w _ => Or.inr ⟨hdir w, hnone w⟩, fun w _ text => iff_of_false nofun ?_⟩
  rintro ⟨name, hname, -⟩
  exact hnone w name hname

/-- A node with the volume of a product, and a file in it. -/
def photoStorage : StorageState where
  files := [([], .dir), (["data"], .dir), (["data", "photos"], .dir),
    (["data", "photos", "beach.jpg"], .file ⟨[1, 2, 3], 0⟩)]
  volumes := []

/-- A snapshot of the volume is created. -/
def createPhotos (fault : Option CreateFault) : SnapshotAction :=
  .createSnapshot (StorageState.sampleVolume "photo-app" "photos") 0 fault

theorem noSnapshots_photoStorage : NoSnapshots sampleStorage photoStorage.files := by
  refine ⟨by unfold FileTree.Functional; decide +kernel, fun q hq => ?_⟩
  obtain ⟨rest, rfl⟩ := hq
  simp [FileTree.get, Assoc.get, photoStorage, sampleStorage]

/-- The volume with the photo. -/
abbrev photosIri : ResourceIri := StorageState.sampleVolume "photo-app" "photos"

/-- The node with a clock, on which it is two at the time zero and three at any other. -/
def clockStorage : StorageEnv :=
  { sampleStorage with
    formatTs := fun ts => if ts = 0 then "2025-07-01T02-00-00.123456Z" else "2025-07-01T03-00-00.123456Z"
    parseRfc3339 := fun text => some (if text = "2025-07-01T02:00:00.123456Z" then 0 else 3600000000) }

/-- The snapshot of the volume with a name, and the photo in it. -/
def photoCopy (name : String) : Files :=
  [(["data", ".snapshots", "photos", name, "beach.jpg"], .file ⟨[1, 2, 3], 0⟩),
    (["data", ".snapshots", "photos", name], .dir)]

/-- The two snapshots of the volume. -/
def twoCopies : EmittingManager where
  storage :=
    { photoStorage with
      files := photoCopy "2025-07-01T03-00-00.123456Z" ++ photoCopy "2025-07-01T02-00-00.123456Z" ++
        [(["data", ".snapshots", "photos"], .dir), (["data", ".snapshots"], .dir)] ++ photoStorage.files }
  events := [.created photosIri
      "/data/.snapshots/photos/2025-07-01T02-00-00.123456Z" 3 0,
    .created photosIri
      "/data/.snapshots/photos/2025-07-01T03-00-00.123456Z" 3 3600000000]

/-- The retention keeps the later snapshot. -/
def oneCopy : EmittingManager where
  storage :=
    { photoStorage with
      files := photoCopy "2025-07-01T03-00-00.123456Z" ++
        [(["data", ".snapshots", "photos"], .dir), (["data", ".snapshots"], .dir)] ++ photoStorage.files }
  events := twoCopies.events ++ [.deleted photosIri
    "/data/.snapshots/photos/2025-07-01T02-00-00.123456Z"]

/-- The two creations. -/
def copyTwice : List SnapshotAction :=
  [.createSnapshot photosIri 0 none,
    .createSnapshot photosIri 3600000000 none]

theorem step_enforceRetention_twoCopies :
    step clockStorage [] twoCopies
      (.enforceRetention photosIri 1 none) = some oneCopy := by
  let later : SnapshotInfo := ⟨photosIri,
    ["data", ".snapshots", "photos", "2025-07-01T03-00-00.123456Z"], 3, 3600000000⟩
  let earlier : SnapshotInfo := ⟨photosIri,
    ["data", ".snapshots", "photos", "2025-07-01T02-00-00.123456Z"], 3, 0⟩
  have hsorted : StorageState.newestFirst [later, earlier] = [later, earlier] :=
    List.mergeSort_of_pairwise (by decide)
  have hlist : twoCopies.storage.listSnapshots clockStorage
      photosIri = .ok [later, earlier] := by
    rw [← hsorted]
    rfl
  have hretired : retired 1 [later, earlier] = [earlier] := by
    rw [retired, hsorted]
    rfl
  have hdelete : StorageState.enforceRetentionWith twoCopies.storage
      photosIri [later, earlier] 1 none =
        some (.ok 1, oneCopy.storage) := by
    rw [StorageState.enforceRetentionWith, hsorted]
    decide +kernel
  simp only [step, enforceRetention, enforceRetentionWith, StorageState.listSnapshotsWith, hlist, hretired,
    hdelete, Option.map_some]
  decide +kernel

/-- A copy that stops before its first entry, and the deletion of the snapshot that is left. -/
def copyAndDelete : List SnapshotAction :=
  [.createSnapshot photosIri 0
      (some (.copy "No space left on device (os error 28)" (.directories 1))),
    .deleteSnapshot photosIri
      "/data/.snapshots/photos/2025-07-01T03-00-00.123456Z" none]

/-- The calls on the volume: two snapshots, the retention, a failure and a deletion. -/
def photoCalls : List SnapshotAction :=
  copyTwice ++ .enforceRetention photosIri 1 none :: copyAndDelete

theorem volumesOf_photoCalls : ∀ v ∈ volumesOf photoCalls, v = photosIri := by
  rintro v ⟨a, ha, rfl⟩
  simp only [photoCalls, copyTwice, copyAndDelete, List.cons_append, List.nil_append, List.mem_cons,
    List.not_mem_nil, or_false] at ha
  rcases ha with rfl | rfl | rfl | rfl | rfl <;> rfl
/-- The snapshot that is deleted is the only one. -/
theorem harmless_deleteCopy {events : List SnapshotEvent} :
    Harmless clockStorage [] (volumesOf photoCalls) ⟨oneCopy.storage, events⟩
      (.deleteSnapshot photosIri "/data/.snapshots/photos/2025-07-01T03-00-00.123456Z" none) := by
  refine Or.inr fun path hpath w hw name hname _ => ?_
  have hphotos : w = photosIri := volumesOf_photoCalls w hw
  have honly : ∀ e ∈ oneCopy.storage.files, e.1.length = 4 → e.2 = .dir →
      e.1 = ["data", ".snapshots", "photos", "2025-07-01T03-00-00.123456Z"] := by decide +kernel
  have hleads : StorageEnv.follow oneCopy.storage.files []
      "/data/.snapshots/photos/2025-07-01T03-00-00.123456Z" =
        some ["data", ".snapshots", "photos", "2025-07-01T03-00-00.123456Z"] := by decide +kernel
  cases hleads.symm.trans hpath
  exact ⟨hphotos, honly _ (Assoc.mem_of_get hname) rfl rfl, by decide +kernel⟩

/-- The disk is full when the photo is copied. -/
def diskFull : CreateFault := .copy "No space left on device (os error 28)" (.entries 0 none)

/-- The state in which the copy has stopped. -/
def afterDiskFull : EmittingManager where
  storage := { photoStorage with files :=
    [(["data", ".snapshots", "photos", "2025-07-01T02-00-00.123456Z"], .dir),
      (["data", ".snapshots", "photos"], .dir), (["data", ".snapshots"], .dir)] ++ photoStorage.files }
  events := [.failed (StorageState.sampleVolume "photo-app" "photos")
    "Internal error: Failed to create snapshot for photos: No space left on device (os error 28)"]

end EmittingManager

end Picloud
