import Picloud.Domain.Specs
import Picloud.Lib.Timestamps
import Picloud.Storage.Restores
import Picloud.Storage.SnapshotEventRuns

/-!
# The snapshot scheduler

Reference: `SnapshotScheduler` of `picloud-storage/src/implementation.rs`, over the `LocalSnapshotManager`.
No operation of the file system fails here, and times are counted in microseconds. What `chrono` writes and
reads is a parameter; `ChronoTimes` is what it promises for the years 0 to 9999.

The time of the last snapshot is kept in memory, and after a restart it is read off from the names of the
snapshots. As the newest ones are retained, both are the same time (`Schedules`), and a run takes a snapshot
exactly when the last one is an interval old (`keepsSchedule_of_allowed`).
-/

namespace Picloud

open Lib

/-! ## The scheduler -/

/-- The interval of a schedule, in microseconds. -/
def SnapshotSchedule.interval : SnapshotSchedule → ℤ
  | .hourly => 3600000000
  | .daily => 86400000000
  | .weekly => 604800000000

/-- `is_due`. -/
def isDue (schedule : SnapshotSchedule) (lastSnapshot : Option ℤ) (now : ℤ) : Bool :=
  match lastSnapshot with
  | none => true
  | some last => schedule.interval ≤ now - last

/-- `SnapshotScheduler`, with the node it works on. -/
structure SnapshotScheduler where
  lastRun : String → Option ℤ
  storage : StorageState

namespace SnapshotScheduler

variable (env : StorageEnv) (volumeIri : ResourceIri) (config : SnapshotConfig)

/-- The time of the last snapshot: the one in memory, or else that of the first one listed. -/
def lastSnapshot (m : SnapshotScheduler) : Except StorageError (Option ℤ) :=
  match m.lastRun volumeIri.value with
  | some last => .ok (some last)
  | none => (m.storage.listSnapshots env volumeIri).map fun existing =>
      existing.head?.map (·.createdAt)

/-- `run_once`. -/
def runOnce (m : SnapshotScheduler) (now : ℤ) :
    Option (Except StorageError (Option SnapshotInfo) × SnapshotScheduler) :=
  if !config.enabled then some (.ok none, m)
  else
    match m.lastSnapshot env volumeIri with
    | .error e => some (.error e, m)
    | .ok last =>
      if !isDue config.schedule last now then some (.ok none, m)
      else (m.storage.createSnapshotAt env volumeIri now none).bind fun
        | (.error e, storage) => some (.error e, { m with storage := storage })
        | (.ok info, storage) =>
          let lastRun := Function.update m.lastRun volumeIri.value (some info.createdAt)
          (storage.enforceRetention env volumeIri config.retentionDaily.toNat []).map fun
            | (.error e, storage) => (.error e, ⟨lastRun, storage⟩)
            | (.ok _, storage) => (.ok (some info), ⟨lastRun, storage⟩)

end SnapshotScheduler

/-! ## Runs -/

/-- The scheduler runs once, the process is started again, or the files of the volume change. -/
inductive SchedulerEvent where
  | runOnce (now : ℤ)
  | restart
  | workloads (files : Files)

/-- A scheduler, with the times of all snapshots of its volume so far, also of those deleted: the latest
one comes first. -/
structure ScheduledVolume where
  scheduler : SnapshotScheduler
  log : List ℤ

/-- What an event leads to. -/
def ScheduledVolume.step (env : StorageEnv) (volumeIri : ResourceIri) (config : SnapshotConfig)
    (s : ScheduledVolume) : SchedulerEvent → Option ScheduledVolume
  | .runOnce now => (s.scheduler.runOnce env volumeIri config now).map fun
    | (.ok (some info), scheduler) => ⟨scheduler, info.createdAt :: s.log⟩
    | (_, scheduler) => { s with scheduler := scheduler }
  | .restart => some { s with scheduler := { s.scheduler with lastRun := fun _ => none } }
  | .workloads files =>
    some { s with scheduler := { s.scheduler with storage := { s.scheduler.storage with files := files } } }

/-! ## Times and their names -/

/-- The time is in the years 0 to 9999. -/
def InCalendar (ts : ℤ) : Prop := -62167219200000000 ≤ ts ∧ ts < 253402300800000000

/-- What `chrono` promises: it writes a time with fixed-width fields, and it reads that text when the
fields of the time are joined by colons. -/
def ChronoTimes (env : StorageEnv) : Prop :=
  ∀ ts, InCalendar ts → ∃ date hour minute second micros : List Char,
    date.length = 10 ∧ hour.length = 2 ∧ minute.length = 2 ∧ second.length = 2 ∧ micros.length = 6 ∧
    env.formatTs ts = String.ofList (date ++ 'T' :: (hour ++ '-' :: (minute ++ '-' :: (second ++
      '.' :: (micros ++ ['Z']))))) ∧
    env.parseRfc3339 (String.ofList (date ++ 'T' :: (hour ++ ':' :: (minute ++ ':' :: (second ++
      '.' :: (micros ++ ['Z'])))))) = some ts

variable {env : StorageEnv}

/-- The name of a snapshot tells its time. -/
theorem parseSnapshotName_formatTs (hchrono : ChronoTimes env) {ts : ℤ} (hts : InCalendar ts) :
    env.parseSnapshotName (env.formatTs ts) = some ts := by
  obtain ⟨date, hour, minute, second, micros, hdate, hhour, hminute, hsecond, hmicros, htext, hparse⟩ :=
    hchrono ts hts
  obtain ⟨h₁, h₂, rfl⟩ := List.length_eq_two.mp hhour
  obtain ⟨m₁, m₂, rfl⟩ := List.length_eq_two.mp hminute
  rw [StorageEnv.parseSnapshotName, htext, String.toList_ofList]
  have htake : ∀ rest : List Char, (date ++ rest).take 10 = date := fun rest => by
    rw [← hdate, List.take_left]
  have hdrop : ∀ rest : List Char, (date ++ rest).drop 10 = rest := fun rest => by
    rw [← hdate, List.drop_left]
  rw [htake, hdrop, if_neg, if_neg, if_neg]
  · refine Eq.trans ?_ hparse
    congr 2
    simp
  · simp
    omega
  · simp
  · simp [hdate, hsecond, hmicros]

/-- Distinct times have distinct names. -/
theorem formatTs_inj (hchrono : ChronoTimes env) {ts ts' : ℤ} (hts : InCalendar ts)
    (hts' : InCalendar ts') (h : env.formatTs ts = env.formatTs ts') : ts = ts' := by
  have hread := parseSnapshotName_formatTs hchrono hts
  rw [h, parseSnapshotName_formatTs hchrono hts'] at hread
  exact (Option.some.inj hread).symm

/-! ## What is listed -/

namespace StorageState

variable {s : StorageState} {v : ResourceIri} {times : List ℤ}

/-- The snapshots of a volume are those of the given times, and nothing else is in their directory. -/
def HoldsSnapshots (env : StorageEnv) (v : ResourceIri) (files : Files) (times : List ℤ) : Prop :=
  ∀ name n, files.get (snapshotPath env v name) = some n ↔
    n = .dir ∧ ∃ t ∈ times, name = env.formatTs t

/-- The times are in order, the latest one first. -/
structure Descending (times : List ℤ) : Prop where
  sorted : times.Pairwise (· > ·)
  calendar : ∀ t ∈ times, InCalendar t

theorem Descending.nodup (h : Descending times) : times.Nodup :=
  h.sorted.imp fun hgt heq => absurd heq (ne_of_gt hgt)

theorem Descending.take (h : Descending times) (m : ℕ) : Descending (times.take m) :=
  ⟨h.sorted.sublist (List.take_sublist m times), fun t ht => h.calendar t (List.mem_of_mem_take ht)⟩

/-- The latest snapshots come first, if they do so already. -/
theorem newestFirst_eq {snapshots : List SnapshotInfo}
    (h : (snapshots.map (·.createdAt)).Pairwise (· > ·)) : newestFirst snapshots = snapshots := by
  refine List.mergeSort_of_pairwise ?_
  rw [List.pairwise_map] at h
  exact h.imp fun hgt => decide_eq_true (le_of_lt hgt)

/-- The snapshot of a time, as it is listed. -/
def infoAt (env : StorageEnv) (s : StorageState) (v : ResourceIri) (t : ℤ) : SnapshotInfo :=
  ⟨v, snapshotPath env v (env.formatTs t),
    s.files.treeSize contentSize (snapshotPath env v (env.formatTs t)), t⟩

/-- The snapshots are listed by their times, the latest one first. -/
theorem listSnapshots_of_holds (hchrono : ChronoTimes env) (hkept : WellKept s.files)
    (hway : s.files.Passable (env.snapshotDir v)) (htimes : Descending times)
    (hholds : HoldsSnapshots env v s.files times) :
    s.listSnapshots env v = .ok (times.map (infoAt env s v)) := by
  rw [listSnapshots]
  rcases hway with hnone | hdir
  · rw [hnone]
    -- Without the directory there is no snapshot.
    cases times with
    | nil => rfl
    | cons t times =>
      have ht := (hholds (env.formatTs t) .dir).mpr ⟨rfl, t, List.mem_cons_self, rfl⟩
      have hparent := hkept.closed.nested _ _ .dir ht (List.prefix_append _ _)
        (by simp [snapshotPath])
      rw [hnone] at hparent
      cases hparent
  · rw [hdir]
    dsimp only
    have hnames : (s.files.subdirs (env.snapshotDir v)).Perm (times.map env.formatTs) := by
      refine (List.perm_ext_iff_of_nodup (FileTree.nodup_subdirs hkept.functional) ?_).mpr fun name => ?_
      · refine List.Nodup.map_on (fun t ht t' ht' heq => ?_) htimes.nodup
        exact formatTs_inj hchrono (htimes.calendar t ht) (htimes.calendar t' ht') heq
      · rw [FileTree.mem_subdirs hkept.functional, List.mem_map]
        refine (hholds name .dir).trans ⟨?_, ?_⟩
        · rintro ⟨-, t, ht, rfl⟩
          exact ⟨t, ht, rfl⟩
        · rintro ⟨t, ht, rfl⟩
          exact ⟨rfl, t, ht, rfl⟩
    have hinfos : (times.map env.formatTs).map (fun name => (⟨v, env.snapshotDir v ++ [name],
        s.files.treeSize contentSize (env.snapshotDir v ++ [name]),
        (env.parseSnapshotName name).getD (env.metadataCreated (env.snapshotDir v ++ [name]))⟩ :
          SnapshotInfo)) = times.map (infoAt env s v) := by
      rw [List.map_map]
      refine List.map_congr_left fun t ht => ?_
      rw [Function.comp_apply, parseSnapshotName_formatTs hchrono (htimes.calendar t ht)]
      rfl
    have hperm := hnames.map fun name => (⟨v, env.snapshotDir v ++ [name],
        s.files.treeSize contentSize (env.snapshotDir v ++ [name]),
        (env.parseSnapshotName name).getD (env.metadataCreated (env.snapshotDir v ++ [name]))⟩ :
          SnapshotInfo)
    rw [hinfos] at hperm
    refine congrArg Except.ok ?_
    refine @List.Perm.eq_of_pairwise SnapshotInfo (fun a b => b.createdAt ≤ a.createdAt) _ _
      ?_ ?_ ?_ ((List.mergeSort_perm _ _).trans hperm)
    · intro a b ha hb hab hba
      have ha' := ((List.mergeSort_perm _ _).trans hperm).mem_iff.mp ha
      obtain ⟨t, -, rfl⟩ := List.mem_map.mp ha'
      obtain ⟨t', -, rfl⟩ := List.mem_map.mp hb
      have heq : t = t' := le_antisymm hba hab
      rw [heq]
    · have hsorted := @List.pairwise_mergeSort SnapshotInfo
        (fun a b => decide (b.createdAt ≤ a.createdAt)) (fun a b c hab hbc => ?_) (fun a b => ?_)
        ((s.files.subdirs (env.snapshotDir v)).map fun name => (⟨v, env.snapshotDir v ++ [name],
          s.files.treeSize contentSize (env.snapshotDir v ++ [name]),
          (env.parseSnapshotName name).getD (env.metadataCreated (env.snapshotDir v ++ [name]))⟩ :
            SnapshotInfo))
      · exact hsorted.imp of_decide_eq_true
      · exact decide_eq_true ((of_decide_eq_true hbc).trans (of_decide_eq_true hab))
      · rw [Bool.or_eq_true, decide_eq_true_iff, decide_eq_true_iff]
        exact (le_total a.createdAt b.createdAt).symm
    · rw [List.pairwise_map]
      exact htimes.sorted.imp fun hgt => le_of_lt hgt

/-! ## A new snapshot -/

/-- Nothing is in the way of the snapshots of a volume that is there. -/
structure ReadyForSnapshots (env : StorageEnv) (v : ResourceIri) (files : Files) : Prop where
  kept : WellKept files
  volume : files.get (env.volumeDir v) = some .dir
  way : ∀ q, q <+: env.snapshotDir v → files.Passable q

theorem snapshotPath_ne_isPrefix {name : String} {q : Path} (hq : q <+: snapshotPath env v name)
    (hne : q ≠ snapshotPath env v name) : q <+: env.snapshotDir v := by
  rw [snapshotPath, List.prefix_concat_iff] at hq
  exact hq.resolve_left hne

/-- A snapshot is taken at a time that no other has. -/
theorem createSnapshotAt_of_holds (hchrono : ChronoTimes env) (hvolume : volumeName v ≠ ".snapshots")
    (hready : ReadyForSnapshots env v s.files) (htimes : Descending times)
    (hholds : HoldsSnapshots env v s.files times) {now : ℤ} (hnow : InCalendar now)
    (hnew : now ∉ times) :
    ∃ info files, s.createSnapshotAt env v now none = some (.ok info, { s with files := files }) ∧
      info.createdAt = now ∧ ReadyForSnapshots env v files ∧
      HoldsSnapshots env v files (now :: times) := by
  have hapart : ¬ Comparable (env.volumeDir v) (snapshotPath env v (env.formatTs now)) :=
    not_comparable_volumeDir hvolume
  have hnone : s.files.get (snapshotPath env v (env.formatTs now)) = none := by
    by_contra hsome
    obtain ⟨n, hn⟩ := Option.ne_none_iff_exists'.mp hsome
    obtain ⟨-, t, ht, heq⟩ := (hholds _ n).mp hn
    exact hnew (formatTs_inj hchrono hnow (htimes.calendar t ht) heq ▸ ht)
  have hfree : s.files.isPresent (env.snapshotDir v ++ [env.formatTs now]) = false := by
    rw [snapshotPath] at hnone
    rw [FileTree.isPresent, hnone]
    rfl
  have hts : freshTs env (fun name => s.files.isPresent (env.snapshotDir v ++ [name]))
      (s.files.length + 1) now = now := by
    rw [freshTs, hfree, if_neg Bool.false_ne_true]
  have hnothing : ∀ rest,
      s.files.get (snapshotPath env v (env.formatTs now) ++ rest) = none := by
    intro rest
    by_contra hsome
    obtain ⟨n, hn⟩ := Option.ne_none_iff_exists'.mp hsome
    by_cases hrest : rest = []
    · rw [hrest, List.append_nil, hnone] at hn
      cases hn
    · have hdir := hready.kept.closed.nested _ _ n hn (List.prefix_append _ rest) fun heq => hrest
        (List.append_cancel_left (heq.symm.trans (List.append_nil _).symm))
      rw [hnone] at hdir
      cases hdir
  obtain ⟨files, hcopy⟩ : ∃ files, s.files.copyTree (env.volumeDir v)
      (snapshotPath env v (env.formatTs now)) = some files := by
    refine FileTree.exists_copyTree hready.kept.functional hready.kept.closed hapart hready.volume
      (fun q hq => ?_) fun rest n m _ hm => ?_
    · by_cases hne : q = snapshotPath env v (env.formatTs now)
      · exact Or.inl (hne ▸ hnone)
      · exact hready.way q (snapshotPath_ne_isPrefix hq hne)
    · rw [hnothing] at hm
      cases hm
  have hdirs := (FileTree.copyTree_keeps hcopy).2
  have hpresent : s.files.isPresent (env.volumeDir v) = true := by
    rw [FileTree.isPresent, hready.volume]
    rfl
  refine ⟨⟨v, snapshotPath env v (env.formatTs now),
    FileTree.treeSize contentSize files (snapshotPath env v (env.formatTs now)), now⟩, files, ?_, rfl,
    ⟨⟨(FileTree.copyTree_keeps hcopy).1.functional hready.kept.functional, ?_⟩, ?_, fun q hq => ?_⟩,
    fun name n => ?_⟩
  · rw [snapshotPath] at hcopy ⊢
    rw [createSnapshotAt, if_pos hpresent, hts]
    dsimp only
    rw [hcopy, Option.map_some]
  · exact FileTree.closed_copyTree hready.kept.functional hready.kept.closed hapart hcopy
  · exact (FileTree.copyTree_frame hcopy fun hcomparable => hapart hcomparable.symm).trans hready.volume
  · exact Or.inr (hdirs q (hq.trans (List.prefix_append _ _)))
  · by_cases hname : name = env.formatTs now
    · rw [hname, hdirs _ (List.prefix_refl _)]
      refine ⟨fun hn => ⟨(Option.some.inj hn).symm, now, List.mem_cons_self, rfl⟩, ?_⟩
      rintro ⟨rfl, -⟩
      rfl
    · have hframe : FileTree.get files (snapshotPath env v name) =
          s.files.get (snapshotPath env v name) :=
        FileTree.copyTree_frame hcopy
          (EmittingManager.not_comparable_snapshotPath (Or.inr fun heq => hname heq.symm))
      rw [hframe, hholds]
      refine and_congr_right' ⟨?_, ?_⟩
      · rintro ⟨t, ht, heq⟩
        exact ⟨t, List.mem_cons_of_mem now ht, heq⟩
      · rintro ⟨t, ht, heq⟩
        rcases List.mem_cons.mp ht with rfl | ht
        · exact absurd heq hname
        · exact ⟨t, ht, heq⟩

/-! ## Retention -/

/-- Without failures both ways to delete snapshots are the same. -/
theorem deleteSnapshots_eq (s : StorageState) (v : ResourceIri) (snapshots : List SnapshotInfo) :
    deleteSnapshots v s snapshots [] = deleteSnapshotsWith v s snapshots none := by
  induction snapshots generalizing s with
  | nil => rfl
  | cons snapshot rest ih =>
    rw [deleteSnapshots, deleteSnapshotsWith, deleteSnapshotWith]
    refine congrArg _ (funext fun result => ?_)
    split
    · rfl
    · exact ih _

/-- The newest snapshots are retained. -/
theorem enforceRetention_of_holds (hchrono : ChronoTimes env) (hvolume : volumeName v ≠ ".snapshots")
    (hready : ReadyForSnapshots env v s.files) (htimes : Descending times)
    (hholds : HoldsSnapshots env v s.files times) {daily : ℕ} (hdaily : 1 ≤ daily) :
    ∃ deleted files, s.enforceRetention env v daily [] = some (.ok deleted, { s with files := files }) ∧
      ReadyForSnapshots env v files ∧ HoldsSnapshots env v files (times.take daily) := by
  have hlist := listSnapshots_of_holds hchrono hready.kept (hready.way _ (List.prefix_refl _)) htimes
    hholds
  rw [enforceRetention, hlist]
  dsimp only
  by_cases hfew : daily = 0 ∨ (times.map (infoAt env s v)).length ≤ daily
  · rw [if_pos hfew]
    rw [List.length_map] at hfew
    refine ⟨0, s.files, rfl, hready, ?_⟩
    rw [List.take_of_length_le (by omega)]
    exact hholds
  · rw [if_neg hfew]
    have hsorted : newestFirst (times.map (infoAt env s v)) = times.map (infoAt env s v) := by
      refine newestFirst_eq ?_
      rw [List.map_map]
      exact (List.map_id times).symm ▸ htimes.sorted
    have hpaths : (((times.map (infoAt env s v)).drop daily).map SnapshotInfo.snapshotPath) =
        (times.drop daily).map fun t => snapshotPath env v (env.formatTs t) := by
      rw [List.map_drop, List.map_drop, List.map_map]
      rfl
    have hdirs : ∀ snapshot ∈ (times.map (infoAt env s v)).drop daily,
        s.files.get snapshot.snapshotPath = some .dir := by
      intro snapshot hmem
      obtain ⟨t, ht, rfl⟩ := List.mem_map.mp (List.mem_of_mem_drop hmem)
      exact (hholds (env.formatTs t) .dir).mpr ⟨rfl, t, ht, rfl⟩
    have hpairs : (((times.map (infoAt env s v)).drop daily).map
        SnapshotInfo.snapshotPath).Pairwise fun p q => ¬ p <+: q := by
      rw [hpaths, List.pairwise_map]
      refine List.Pairwise.imp_of_mem (fun {t t'} ht ht' hne hpre => hne ?_)
        (htimes.nodup.sublist (List.drop_sublist daily times))
      exact formatTs_inj hchrono (htimes.calendar t (List.mem_of_mem_drop ht))
        (htimes.calendar t' (List.mem_of_mem_drop ht'))
        (EmittingManager.snapshotPath_inj (EmittingManager.snapshotPath_isPrefix hpre)).2
    have hfault : ∀ done f, (none : Option (ℕ × DeleteFault)) = some (done, f) →
        ((times.map (infoAt env s v)).drop daily).length ≤ done := fun _ _ h => by cases h
    obtain ⟨files, hdelete, hfunctional, hget⟩ :=
      EmittingManager.deleteSnapshotsWith_eq (v := v) hdirs hpairs hfault
    rw [hpaths] at hget
    -- What is not below a deleted snapshot is as it was.
    have hsame : ∀ q, (∀ t ∈ times.drop daily, ¬ snapshotPath env v (env.formatTs t) <+: q) →
        FileTree.get files q = s.files.get q := by
      intro q hq
      rw [hget q, if_neg]
      rintro ⟨p, hp, hpre⟩
      obtain ⟨t, ht, rfl⟩ := List.mem_map.mp hp
      exact hq t ht hpre
    have hgone : ∀ q n, FileTree.get files q = some n →
        ∀ t ∈ times.drop daily, ¬ snapshotPath env v (env.formatTs t) <+: q := by
      intro q n hn t ht hpre
      rw [hget q, if_pos ⟨_, List.mem_map_of_mem ht, hpre⟩] at hn
      cases hn
    have hshort : ∀ q, q <+: env.snapshotDir v →
        ∀ t ∈ times.drop daily, ¬ snapshotPath env v (env.formatTs t) <+: q := by
      intro q hq t _ hpre
      have hlength := (hpre.trans hq).length_le
      rw [snapshotPath, List.length_append, List.length_singleton] at hlength
      omega
    refine ⟨_, files, by rw [hsorted, deleteSnapshots_eq, hdelete]; rfl,
      ⟨⟨hfunctional hready.kept.functional, ?_⟩, ?_, fun q hq => ?_⟩, fun name n => ?_⟩
    · refine FileTree.closed_of_nested ?_ fun p q n hn hpq hne => ?_
      · rw [hsame [] (hshort [] List.nil_prefix), hready.kept.closed.root]
      · rw [hsame p fun t ht hpre => hgone q n hn t ht (hpre.trans hpq)]
        rw [hsame q (hgone q n hn)] at hn
        exact hready.kept.closed.nested p q n hn hpq hne
    · have hapart : ∀ t, ¬ Comparable (env.volumeDir v) (snapshotPath env v (env.formatTs t)) :=
        fun _ => not_comparable_volumeDir hvolume
      rw [hsame _ fun t _ hpre => hapart t (Or.inr hpre), hready.volume]
    · rw [FileTree.Passable, hsame q (hshort q hq)]
      exact hready.way q hq
    · constructor
      · intro hn
        have hkept := hgone _ n hn
        rw [hsame _ hkept] at hn
        obtain ⟨hdir, t, ht, hname⟩ := (hholds name n).mp hn
        refine ⟨hdir, t, ?_, hname⟩
        rw [← List.take_append_drop daily times] at ht
        refine (List.mem_append.mp ht).resolve_right fun hdrop => hkept t hdrop ?_
        rw [hname]
      · rintro ⟨rfl, t, ht, rfl⟩
        rw [hsame]
        · exact (hholds _ .dir).mpr ⟨rfl, t, List.mem_of_mem_take ht, rfl⟩
        · intro t' ht' hpre
          have heq := formatTs_inj hchrono (htimes.calendar t' (List.mem_of_mem_drop ht'))
            (htimes.calendar t (List.mem_of_mem_take ht))
            (EmittingManager.snapshotPath_inj (EmittingManager.snapshotPath_isPrefix hpre)).2
          exact List.disjoint_take_drop htimes.nodup (le_refl daily) ht (heq ▸ ht')

end StorageState

/-! ## The invariant of the scheduler -/

open StorageState

namespace ScheduledVolume

variable {v : ResourceIri} {config : SnapshotConfig} {s s' start : ScheduledVolume} {now : ℤ}

/-- The newest snapshots are there, at least as many as are retained, and the time in memory is that of the
last one. -/
structure Schedules (env : StorageEnv) (v : ResourceIri) (daily : ℕ) (s : ScheduledVolume) : Prop where
  ready : ReadyForSnapshots env v s.scheduler.storage.files
  descending : Descending s.log
  snapshots : ∃ m, (daily ≤ m ∨ s.log.length ≤ m) ∧
    HoldsSnapshots env v s.scheduler.storage.files (s.log.take m)
  remembered : ∀ last, s.scheduler.lastRun v.value = some last → s.log.head? = some last

/-- What the scheduler starts with: the snapshots of some times, and nothing in memory. -/
structure Starts (env : StorageEnv) (v : ResourceIri) (start : ScheduledVolume) : Prop where
  ready : ReadyForSnapshots env v start.scheduler.storage.files
  descending : Descending start.log
  snapshots : HoldsSnapshots env v start.scheduler.storage.files start.log
  cold : start.scheduler.lastRun v.value = none

theorem Starts.schedules (h : Starts env v start) (daily : ℕ) : Schedules env v daily start where
  ready := h.ready
  descending := h.descending
  snapshots := ⟨start.log.length, Or.inr (le_refl _), by rw [List.take_length]; exact h.snapshots⟩
  remembered last hlast := by
    rw [h.cold] at hlast
    cases hlast

/-- In memory or read off from the names, it is the time of the last snapshot. -/
theorem Schedules.lastSnapshot_eq {daily : ℕ} (hchrono : ChronoTimes env) (hdaily : 1 ≤ daily)
    (h : Schedules env v daily s) : s.scheduler.lastSnapshot env v = .ok s.log.head? := by
  unfold SnapshotScheduler.lastSnapshot
  cases hlast : s.scheduler.lastRun v.value with
  | some last => rw [h.remembered last hlast]
  | none =>
    obtain ⟨m, hm, hholds⟩ := h.snapshots
    dsimp only
    rw [listSnapshots_of_holds hchrono h.ready.kept (h.ready.way _ (List.prefix_refl _))
      (h.descending.take m) hholds]
    refine congrArg Except.ok ?_
    dsimp only
    rw [List.head?_map, Option.map_map, List.head?_take]
    split_ifs with hzero
    · -- Without snapshots there is no time.
      obtain hnil : s.log = [] := List.length_eq_zero_iff.mp (by omega)
      rw [hnil]
      rfl
    · cases s.log <;> rfl

/-- The scheduler is due when all snapshots are an interval old. -/
theorem isDue_iff (schedule : SnapshotSchedule) (h : Descending s.log) :
    isDue schedule s.log.head? now = true ↔ ∀ t ∈ s.log, t + schedule.interval ≤ now := by
  cases hlog : s.log with
  | nil => simp [isDue]
  | cons last log =>
    have hsorted := h.sorted
    rw [hlog, List.pairwise_cons] at hsorted
    rw [List.head?_cons, isDue, decide_eq_true_iff]
    constructor
    · intro hdue t ht
      rcases List.mem_cons.mp ht with rfl | ht
      · omega
      · have hlater := hsorted.1 t ht
        omega
    · intro hdue
      have hlast := hdue last List.mem_cons_self
      omega

/-- A run takes a snapshot now, and retains the newest ones. -/
theorem Schedules.runOnce_of_due (hchrono : ChronoTimes env) (hvolume : volumeName v ≠ ".snapshots")
    (henabled : config.enabled = true) (hdaily : 1 ≤ config.retentionDaily.toNat)
    (h : Schedules env v config.retentionDaily.toNat s) (hnow : InCalendar now)
    (hdue : ∀ t ∈ s.log, t + config.schedule.interval ≤ now) :
    ∃ info files, s.scheduler.runOnce env v config now = some (.ok (some info),
        ⟨Function.update s.scheduler.lastRun v.value (some now),
          { s.scheduler.storage with files := files }⟩) ∧
      info.createdAt = now ∧ Descending (now :: s.log) ∧ ReadyForSnapshots env v files ∧
      HoldsSnapshots env v files ((now :: s.log).take config.retentionDaily.toNat) := by
  have hpositive : 0 < config.schedule.interval := by
    cases config.schedule <;> decide
  have hdescending : Descending (now :: s.log) := by
    refine ⟨List.pairwise_cons.mpr ⟨fun t ht => ?_, h.descending.sorted⟩, ?_⟩
    · have hold := hdue t ht
      omega
    · exact List.forall_mem_cons.mpr ⟨hnow, h.descending.calendar⟩
  obtain ⟨m, hm, hholds⟩ := h.snapshots
  have hnew : now ∉ s.log.take m := fun hmem =>
    (List.nodup_cons.mp hdescending.nodup).1 (List.mem_of_mem_take hmem)
  obtain ⟨info, files, hcreate, hinfo, hready, hholds'⟩ := createSnapshotAt_of_holds hchrono hvolume
    h.ready (h.descending.take m) hholds hnow hnew
  have htimes : Descending (now :: s.log.take m) := by
    have htake := hdescending.take (m + 1)
    rwa [List.take_succ_cons] at htake
  obtain ⟨deleted, files', hretain, hready', hholds''⟩ := enforceRetention_of_holds
    (s := { s.scheduler.storage with files := files }) hchrono hvolume hready htimes hholds' hdaily
  refine ⟨info, files', ?_, hinfo, hdescending, hready', ?_⟩
  · rw [SnapshotScheduler.runOnce, henabled, h.lastSnapshot_eq hchrono hdaily]
    have hisDue := (isDue_iff config.schedule h.descending).mpr hdue
    dsimp only
    rw [hisDue, hcreate, Bool.not_true, if_neg Bool.false_ne_true, if_neg Bool.false_ne_true,
      Option.bind_some]
    dsimp only
    rw [hretain, hinfo]
    rfl
  · -- What was there before are the newest of all.
    obtain ⟨k, hk⟩ : ∃ k, config.retentionDaily.toNat = k + 1 := ⟨_, (Nat.sub_add_cancel hdaily).symm⟩
    rw [hk, List.take_succ_cons, List.take_take] at hholds''
    rw [hk, List.take_succ_cons]
    rcases hm with hm | hm
    · rwa [min_eq_left (by omega)] at hholds''
    · rw [← List.take_take, List.take_of_length_le hm] at hholds''
      exact hholds''

/-- A run that is not due does nothing. -/
theorem Schedules.runOnce_of_not_due (hchrono : ChronoTimes env)
    (hdaily : 1 ≤ config.retentionDaily.toNat) (h : Schedules env v config.retentionDaily.toNat s)
    (hdue : ¬ ∀ t ∈ s.log, t + config.schedule.interval ≤ now) :
    s.scheduler.runOnce env v config now = some (.ok none, s.scheduler) := by
  have hisDue : isDue config.schedule s.log.head? now = false :=
    eq_false_of_ne_true fun htrue => hdue ((isDue_iff config.schedule h.descending).mp htrue)
  rw [SnapshotScheduler.runOnce, h.lastSnapshot_eq hchrono hdaily]
  dsimp only
  rw [hisDue, Bool.not_false, if_pos rfl, ite_self]

/-! ## Whole runs -/

/-- What may happen: the clock is in the years 0 to 9999, and workloads change the files of the volume. -/
def Allowed (env : StorageEnv) (v : ResourceIri) (s : ScheduledVolume) : SchedulerEvent → Prop
  | .runOnce now => InCalendar now
  | .restart => True
  | .workloads files => WellKept files ∧ files.get (env.volumeDir v) = some .dir ∧
      ∀ q, ¬ env.volumeDir v <+: q → files.get q = s.scheduler.storage.files.get q

/-- What a run of the scheduler does: it takes a snapshot now if all before are an interval old, and
retains the newest ones; otherwise it does nothing. -/
structure OnSchedule (env : StorageEnv) (v : ResourceIri) (config : SnapshotConfig) (s : ScheduledVolume)
    (now : ℤ) : Prop where
  due : (∀ t ∈ s.log, t + config.schedule.interval ≤ now) → ∃ info scheduler,
    s.scheduler.runOnce env v config now = some (.ok (some info), scheduler) ∧ info.createdAt = now ∧
      (now :: s.log).Pairwise (· > ·) ∧
      HoldsSnapshots env v scheduler.storage.files
        ((now :: s.log).take config.retentionDaily.toNat) ∧
      scheduler.storage.files.get (snapshotPath env v (env.formatTs now)) = some .dir
  waits : (¬ ∀ t ∈ s.log, t + config.schedule.interval ≤ now) →
    s.scheduler.runOnce env v config now = some (.ok none, s.scheduler)

/-- The schedule and the retention are kept in a run. -/
structure KeepsSchedule (env : StorageEnv) (v : ResourceIri) (config : SnapshotConfig)
    (start : ScheduledVolume) (events : List SchedulerEvent) : Prop where
  runs : ∀ before now after, events = before ++ .runOnce now :: after →
    ∃ s, runSteps (step env v config) start before = some s ∧ OnSchedule env v config s now
  apart : ∃ s taken, runSteps (step env v config) start events = some s ∧ s.log = taken ++ start.log ∧
    taken.Pairwise (fun newer older => older + config.schedule.interval ≤ newer) ∧
    ∀ newer ∈ taken, ∀ older ∈ start.log, older + config.schedule.interval ≤ newer

theorem Schedules.onSchedule (hchrono : ChronoTimes env) (hvolume : volumeName v ≠ ".snapshots")
    (henabled : config.enabled = true) (hdaily : 1 ≤ config.retentionDaily.toNat)
    (h : Schedules env v config.retentionDaily.toNat s) (hnow : InCalendar now) :
    OnSchedule env v config s now where
  due hdue := by
    obtain ⟨info, files, hrun, hinfo, hdescending, -, hholds⟩ :=
      h.runOnce_of_due hchrono hvolume henabled hdaily hnow hdue
    refine ⟨info, _, hrun, hinfo, hdescending.sorted, hholds, ?_⟩
    refine (hholds (env.formatTs now) .dir).mpr ⟨rfl, now, ?_, rfl⟩
    exact List.mem_take_iff_getElem.mpr ⟨0, by simp; omega, rfl⟩
  waits hdue := h.runOnce_of_not_due hchrono hdaily hdue

/-- What an event does: it keeps the invariant, and the log gets a time that is an interval later than
all before, if any. -/
theorem Schedules.step (hchrono : ChronoTimes env) (hvolume : volumeName v ≠ ".snapshots")
    (henabled : config.enabled = true) (hdaily : 1 ≤ config.retentionDaily.toNat)
    (h : Schedules env v config.retentionDaily.toNat s) {a : SchedulerEvent} (ha : Allowed env v s a) :
    ∃ s', ScheduledVolume.step env v config s a = some s' ∧
      Schedules env v config.retentionDaily.toNat s' ∧
      (s'.log = s.log ∨ ∃ now, s'.log = now :: s.log ∧
        ∀ t ∈ s.log, t + config.schedule.interval ≤ now) := by
  cases a with
  | runOnce now =>
    by_cases hdue : ∀ t ∈ s.log, t + config.schedule.interval ≤ now
    · obtain ⟨info, files, hrun, hinfo, hdescending, hready, hholds⟩ :=
        h.runOnce_of_due hchrono hvolume henabled hdaily ha hdue
      subst hinfo
      refine ⟨_, by rw [ScheduledVolume.step, hrun]; rfl, ⟨hready, hdescending, ?_, fun last hlast => ?_⟩,
        Or.inr ⟨info.createdAt, rfl, hdue⟩⟩
      · exact ⟨config.retentionDaily.toNat, Or.inl (le_refl _), hholds⟩
      · dsimp only at hlast
        rwa [Function.update_self] at hlast
    · have hrun := h.runOnce_of_not_due hchrono hdaily hdue
      exact ⟨s, by rw [ScheduledVolume.step, hrun]; rfl, h, Or.inl rfl⟩
  | restart => exact ⟨_, rfl, ⟨h.ready, h.descending, h.snapshots, nofun⟩, Or.inl rfl⟩
  | workloads files =>
    obtain ⟨hkept, hdir, hsame⟩ := ha
    have hoff : ∀ name rest, files.get (snapshotPath env v name ++ rest) =
        s.scheduler.storage.files.get (snapshotPath env v name ++ rest) := fun name rest =>
      hsame _ fun hpre => not_comparable_volumeDir hvolume
        (FileTree.comparable_of_isPrefix_append hpre).symm
    obtain ⟨m, hm, hholds⟩ := h.snapshots
    refine ⟨_, rfl, ⟨⟨hkept, hdir, fun q hq => ?_⟩, h.descending, ⟨m, hm, fun name n => ?_⟩,
      h.remembered⟩, Or.inl rfl⟩
    · have hapart : ¬ Comparable (env.volumeDir v) (snapshotPath env v "") :=
        not_comparable_volumeDir hvolume
      rw [FileTree.Passable, hsame q fun hpre =>
        hapart (Or.inl (hpre.trans (hq.trans (List.prefix_append _ _))))]
      exact h.ready.way q hq
    · have hnode := hoff name []
      rw [List.append_nil] at hnode
      dsimp only
      rw [hnode]
      exact hholds name n

/-- Runs keep the invariant, and all snapshots that they take are an interval apart. -/
theorem Schedules.runSteps (hchrono : ChronoTimes env) (hvolume : volumeName v ≠ ".snapshots")
    (henabled : config.enabled = true) (hdaily : 1 ≤ config.retentionDaily.toNat)
    (h : Schedules env v config.retentionDaily.toNat s) {events : List SchedulerEvent}
    (hallowed : StepsMeet (ScheduledVolume.step env v config) (Allowed env v) s events) :
    ∃ s' taken, Lib.runSteps (ScheduledVolume.step env v config) s events = some s' ∧
      Schedules env v config.retentionDaily.toNat s' ∧ s'.log = taken ++ s.log ∧
      taken.Pairwise (fun newer older => older + config.schedule.interval ≤ newer) ∧
      ∀ newer ∈ taken, ∀ older ∈ s.log, older + config.schedule.interval ≤ newer := by
  induction events generalizing s with
  | nil => exact ⟨s, [], rfl, h, rfl, List.Pairwise.nil, fun _ hmem => absurd hmem List.not_mem_nil⟩
  | cons a events ih =>
    obtain ⟨s₁, hstep, h₁, hlog⟩ := h.step hchrono hvolume henabled hdaily hallowed.1
    have hrest := hallowed.2
    rw [hstep] at hrest
    obtain ⟨s', taken, hrun, h', hlog', hapart, hbefore⟩ := ih h₁ hrest
    rw [runSteps_cons, hstep]
    rcases hlog with hlog | ⟨now, hlog, hdue⟩
    · exact ⟨s', taken, hrun, h', hlog ▸ hlog', hapart, hlog ▸ hbefore⟩
    · rw [hlog] at hlog' hbefore
      refine ⟨s', taken ++ [now], hrun, h', by rw [hlog', List.append_assoc]; rfl, ?_, ?_⟩
      · rw [List.pairwise_append]
        refine ⟨hapart, List.pairwise_singleton _ now, fun newer hnewer older holder => ?_⟩
        exact hbefore newer hnewer older (List.mem_singleton.mp holder ▸ List.mem_cons_self)
      · intro newer hnewer older holder
        rcases List.mem_append.mp hnewer with hnewer | hnewer
        · exact hbefore newer hnewer older (List.mem_cons_of_mem now holder)
        · exact List.mem_singleton.mp hnewer ▸ hdue older holder

/-- The microseconds from the start of the year 0 to that of 1970. -/
def microsTo1970 : ℤ := 62167219200000000

/-- A node whose times are those of the calendar. -/
def calendarStorage : StorageEnv :=
  { sampleStorage with
    formatTs := fun ts => String.ofList (instantText '-' (ts + microsTo1970).toNat)
    parseRfc3339 := fun text => some (readInstant text.toList - microsTo1970) }

theorem chronoTimes_calendarStorage : ChronoTimes calendarStorage := by
  intro ts hts
  have hmicros : ts + microsTo1970 = ((ts + microsTo1970).toNat : ℤ) := by
    have hlow := hts.1
    rw [microsTo1970]
    omega
  have hbound : (ts + microsTo1970).toNat < 3600000000 * (24 * daysOfCalendar) := by
    have hhigh := hts.2
    rw [microsTo1970, daysOfCalendar]
    omega
  refine ⟨(instantText '-' (ts + microsTo1970).toNat).take 10, pad2 ((ts + microsTo1970).toNat / 3600000000 % 24),
    pad2 ((ts + microsTo1970).toNat / 60000000 % 60), pad2 ((ts + microsTo1970).toNat / 1000000 % 60),
    pad6 ((ts + microsTo1970).toNat % 1000000), rfl, rfl, rfl, rfl, rfl, rfl, ?_⟩
  have hread := readInstant_instantText ':' hbound
  refine congrArg some ?_
  rw [String.toList_ofList]
  refine (congrArg (fun n : ℕ => (n : ℤ) - microsTo1970) hread).trans ?_
  omega

/-- A volume without snapshots. -/
def newPhotos : ScheduledVolume where
  scheduler := ⟨fun _ => none, ⟨[([], .dir), (["data"], .dir), (["data", "photos"], .dir),
    (["data", "photos", "cat.jpg"], .file ⟨[1, 2, 3], 0⟩)], []⟩⟩
  log := []

/-- One snapshot an hour, of which the last one is kept. -/
def hourlyPhotos : SnapshotConfig := ⟨true, .hourly, "nas", 1, 0, 0⟩

/-- Runs at 0:00, at 0:30, and after a restart at 1:00. -/
def photoRuns : List SchedulerEvent :=
  [.runOnce 1751328000000000, .runOnce 1751329800000000, .restart, .runOnce 1751331600000000]

/-- The snapshots of a volume called `.snapshots` would lie in the volume: no snapshot of it is taken. -/
theorem createSnapshotAt_snapshots {s : StorageState} (hname : volumeName v = ".snapshots")
    (hthere : s.files.isPresent (env.volumeDir v) = true) (atTime : ℤ) :
    s.createSnapshotAt env v atTime none = none := by
  have hinside : ∀ text, env.volumeDir v <+: env.snapshotDir v ++ [text] := by
    intro text
    rw [StorageEnv.volumeDir, StorageEnv.snapshotDir, hname, List.append_assoc]
    exact (List.prefix_append_right_inj env.basePath).mpr (List.prefix_append [".snapshots"] _)
  rw [createSnapshotAt, if_pos hthere]
  dsimp only
  rw [FileTree.copyTree, if_pos (hinside _), Option.map_none]

/-- A volume with the name of the directory of all snapshots. -/
def snapshotsVolume : ScheduledVolume where
  scheduler := ⟨fun _ => none, ⟨[([], .dir), (["data"], .dir), (["data", ".snapshots"], .dir)], []⟩⟩
  log := []

end ScheduledVolume

end Picloud
