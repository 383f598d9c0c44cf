import Mathlib.Logic.Encodable.Basic
import Picloud.Lib.TreeCopies
import Picloud.Storage.Isolation
import Picloud.Storage.SnapshotEvents

/-!
# Restoring snapshots

Reference: `copy_dir_all`, `create_snapshot_at`, `restore_snapshot` and `restore_snapshot_to_new_volume`
of `picloud-storage/src/implementation.rs`.

A snapshot that is restored to its volume gives back the tree of the volume (`get_createSnapshotAt`,
`restoreSnapshot_eq`). But `restore_snapshot` clears the volume before it copies, so that an error in
between loses the volume (`restoreSnapshotWith_iff`), and `restore_snapshot_to_new_volume` does not clear
its target (`restoreSnapshotToNewVolume_iff`). The trees are without symbolic links.
-/

namespace Picloud

open Lib

/-! ## Failures -/

/-- What fails while a snapshot is restored: a look-up that then finds nothing, the removal of the volume,
which keeps a part of it, or the copy, which stops at one of its steps. -/
inductive RestoreFault where
  | unseen
  | volumeUnseen
  | removal (message : String) (kept : Path → Bool)
  | copy (message : String) (stop : CopyStop Content)

namespace StorageState

variable (env : StorageEnv) (s : StorageState) (volumeIri : ResourceIri)

/-- `restore_snapshot`, with at most one failure. -/
def restoreSnapshotWith (timestamp : String) :
    Option RestoreFault → Option (Except StorageError Unit × StorageState)
  | none => s.restoreSnapshot env volumeIri timestamp none
  | some fault =>
    let dir := env.volumeDir volumeIri
    match StorageEnv.follow s.files (env.snapshotDir volumeIri) timestamp with
    | none => some (.error (missingSnapshot timestamp volumeIri), s)
    | some source =>
      match fault with
      | .unseen => some (.error (missingSnapshot timestamp volumeIri), s)
      | .volumeUnseen =>
        (s.files.copyTree source dir).map fun files => (.ok (), { s with files := files })
      | .removal message kept =>
        if s.files.isPresent dir then
          some (.error (.internal ("Failed to clear volume " ++ volumeName volumeIri ++ ": " ++ message)),
            { s with files := s.files.filter fun e => ¬ dir <+: e.1 ∨ e.1 = dir ∨ kept e.1 })
        else none
      | .copy message stop =>
        if s.files.isPresent dir ∧ ¬ s.files.isDir dir then none
        else ((s.files.removeTree dir).copyTreeUntil source dir stop).map fun files =>
          (.error (.internal ("Failed to restore snapshot for " ++ volumeName volumeIri ++ ": " ++
            message)), { s with files := files })

end StorageState

open StorageState in
/-- The failure leaves the content of the volume: it is one of a look-up, the removal has not removed
anything yet, or the copy has come to all that was in the volume. -/
def RestoreFault.Spares (env : StorageEnv) (s : StorageState) (v : ResourceIri) (name : String) :
    RestoreFault → Prop
  | .unseen | .volumeUnseen => True
  | .removal _ kept => ∀ rest n, rest ≠ [] → s.files.get (env.volumeDir v ++ rest) = some n →
      kept (env.volumeDir v ++ rest) = true
  | .copy _ (.directories _) => False
  | .copy _ (.entries copied cut) =>
    let copy := s.files.copiedUntil (snapshotPath env v name) (.entries copied cut)
    ∀ rest n, rest ≠ [] → s.files.get (env.volumeDir v ++ rest) = some n →
      (snapshotPath env v name ++ rest, n) ∈ copy ∨ n = .dir ∧
        ∃ e ∈ copy, snapshotPath env v name ++ rest <+: e.1 ∧ snapshotPath env v name ++ rest ≠ e.1

/-! ## Names and trees -/

/-- The text is the name of a file in a directory. -/
def IsFileName (name : String) : Prop := IsName name ∧ '/' ∉ name.toList

/-- A tree as a file system keeps it. -/
structure WellKept (files : Files) : Prop where
  functional : files.Functional
  closed : files.Closed

/-- What `format_ts` promises: distinct times have distinct names, and they are names of files. -/
structure NamesTimes (env : StorageEnv) : Prop where
  injective : Function.Injective env.formatTs
  isFileName : ∀ ts, IsFileName (env.formatTs ts)

namespace StorageState

variable {env : StorageEnv} {s s₁ : StorageState} {v w : ResourceIri} {name : String}

/-- A snapshot that is there is found by its name. -/
theorem follow_snapshot {files : Files} (hkept : WellKept files) (hname : IsFileName name)
    (hdir : files.get (snapshotPath env v name) = some .dir) :
    StorageEnv.follow files (env.snapshotDir v) name = some (snapshotPath env v name) := by
  have hsplit : (name.toList.splitOnP (· = '/')).map String.ofList = [name] := by
    rw [List.splitOnP_eq_singleton, List.map_singleton, String.ofList_toList]
    intro c hc
    exact decide_eq_false fun heq => hname.2 (heq ▸ hc)
  have hrelative : name.toList.head? ≠ some '/' := fun hhead => hname.2 (List.mem_of_head? hhead)
  have hpresent : files.isPresent (env.snapshotDir v ++ [name]) = true := by
    rw [snapshotPath] at hdir
    rw [FileTree.isPresent, hdir]
    rfl
  rw [StorageEnv.follow, hsplit, if_neg hrelative,
    hkept.closed.walk_of_names (List.forall_mem_singleton.mpr hname.1), if_pos hpresent, snapshotPath]

/-- The directory of a volume and a snapshot lie apart. -/
theorem not_comparable_volumeDir (h : volumeName w ≠ ".snapshots") :
    ¬ Comparable (env.volumeDir w) (snapshotPath env v name) := by
  rw [StorageEnv.volumeDir, snapshotPath, StorageEnv.snapshotDir, List.append_assoc,
    comparable_append_iff]
  simp only [List.cons_append, List.nil_append, comparable_cons_iff]
  exact fun hcomparable => h hcomparable.1

/-! ## The directory of a new snapshot -/

/-- The search ends at a time whose directory is free, or all times that it tries are taken. -/
theorem freshTs_free (env : StorageEnv) (taken : String → Bool) (fuel : ℕ) (ts : ℤ) :
    taken (env.formatTs (freshTs env taken fuel ts)) = false ∨
      ∀ i < fuel, taken (env.formatTs (ts + i)) = true := by
  induction fuel generalizing ts with
  | zero => exact Or.inr fun i hi => absurd hi (Nat.not_lt_zero i)
  | succ fuel ih =>
    rw [freshTs]
    cases htaken : taken (env.formatTs ts) with
    | false => exact Or.inl htaken
    | true =>
      rw [if_pos rfl]
      refine (ih (ts + 1)).imp_right fun h i hi => ?_
      cases i with
      | zero => rwa [Nat.cast_zero, add_zero]
      | succ i =>
        have hnext := h i (Nat.lt_of_succ_lt_succ hi)
        rwa [add_assoc, add_comm 1 (i : ℤ), ← Nat.cast_succ] at hnext

/-- A new snapshot gets a directory of its own: there are more times to try than nodes. -/
theorem freshTs_unused (hformat : Function.Injective env.formatTs) (s : StorageState) (v : ResourceIri)
    (atTime : ℤ) :
    s.files.get (snapshotPath env v (env.formatTs (freshTs env
      (fun name => s.files.isPresent (env.snapshotDir v ++ [name])) (s.files.length + 1) atTime))) =
        none := by
  rcases freshTs_free env (fun name => s.files.isPresent (env.snapshotDir v ++ [name]))
    (s.files.length + 1) atTime with hfree | hall
  · rw [FileTree.isPresent, Option.isSome_eq_false_iff, Option.isNone_iff_eq_none] at hfree
    exact hfree
  · exfalso
    let paths := (List.range (s.files.length + 1)).map fun i : ℕ =>
      snapshotPath env v (env.formatTs (atTime + i))
    have hnodup : paths.Nodup := by
      refine List.Nodup.map (fun i j hij => ?_) List.nodup_range
      have htime := hformat (by simpa [snapshotPath] using hij)
      omega
    have hsubset : paths ⊆ Assoc.keys s.files := by
      intro path hpath
      obtain ⟨i, hi, rfl⟩ := List.mem_map.mp hpath
      obtain ⟨n, hn⟩ := Option.isSome_iff_exists.mp (hall i (List.mem_range.mp hi))
      exact List.mem_map.mpr ⟨_, Assoc.mem_of_get hn, rfl⟩
    have hlength := (List.subperm_of_subset hnodup hsubset).length_le
    rw [List.length_map, List.length_range, Assoc.keys, List.length_map] at hlength
    omega

/-! ## A snapshot and its restoration -/

/-- A new snapshot holds the tree of the volume. -/
theorem get_createSnapshotAt (hformat : Function.Injective env.formatTs)
    (hvolume : volumeName v ≠ ".snapshots") (hkept : WellKept s.files) {atTime : ℤ} {info : SnapshotInfo}
    (h : s.createSnapshotAt env v atTime none = some (.ok info, s₁)) :
    s₁.files.get (snapshotPath env v (env.formatTs info.createdAt)) = some .dir ∧
      ∀ rest, s₁.files.get (snapshotPath env v (env.formatTs info.createdAt) ++ rest) =
        s.files.get (env.volumeDir v ++ rest) := by
  rw [createSnapshotAt] at h
  split_ifs at h with hpresent
  · dsimp only at h
    obtain ⟨files, hcopy, heq⟩ := Option.map_eq_some_iff.mp h
    cases heq
    have hunused := freshTs_unused hformat s v atTime
    refine ⟨(FileTree.copyTree_keeps hcopy).2 _ (List.prefix_refl _), fun rest => ?_⟩
    refine (FileTree.get_copyTree hkept.functional hkept.closed (not_comparable_volumeDir hvolume)
      hcopy rest).trans ?_
    -- Nothing was below the directory of the snapshot.
    have hnothing : s.files.get (snapshotPath env v (env.formatTs (freshTs env
        (fun name => s.files.isPresent (env.snapshotDir v ++ [name])) (s.files.length + 1) atTime)) ++
          rest) = none := by
      by_contra hsome
      obtain ⟨n, hn⟩ := Option.ne_none_iff_exists'.mp hsome
      by_cases hrest : rest = []
      · rw [hrest, List.append_nil, hunused] at hn
        cases hn
      · have hdir := hkept.closed.nested _ _ n hn (List.prefix_append _ rest) fun heq => hrest
          (List.append_cancel_left (heq.symm.trans (List.append_nil _).symm))
        rw [hunused] at hdir
        cases hdir
    rw [hnothing, Option.or_none]
  · cases h

/-- What leads to a volume leads to the snapshots. -/
theorem dir_of_leads {files : Files} (hkept : WellKept files)
    (hsnapshot : files.get (snapshotPath env v name) = some .dir) {q : Path}
    (hq : q <+: env.volumeDir w) (hne : q ≠ env.volumeDir w) : files.get q = some .dir := by
  have hbase : q <+: env.basePath := by
    rw [StorageEnv.volumeDir, List.prefix_concat_iff] at hq
    exact hq.resolve_left hne
  refine hkept.closed.nested q _ .dir hsnapshot (hbase.trans ?_) ?_
  · rw [snapshotPath, StorageEnv.snapshotDir, List.append_assoc]
    exact List.prefix_append _ _
  · rintro rfl
    have hlength := hbase.length_le
    simp [snapshotPath, StorageEnv.snapshotDir] at hlength

/-- A snapshot that is there is restored to its volume, whatever the volume holds. -/
theorem restoreSnapshot_eq (hvolume : volumeName v ≠ ".snapshots") (hkept : WellKept s.files)
    (hname : IsFileName name) (hsnapshot : s.files.get (snapshotPath env v name) = some .dir)
    (hdir : s.files.Passable (env.volumeDir v)) :
    ∃ s', s.restoreSnapshot env v name none = some (.ok (), s') ∧
      ∀ rest, s'.files.get (env.volumeDir v ++ rest) =
        s.files.get (snapshotPath env v name ++ rest) := by
  have hapart : ¬ Comparable (snapshotPath env v name) (env.volumeDir v) := fun hcomparable =>
    not_comparable_volumeDir hvolume hcomparable.symm
  have hfunctional : (s.files.removeTree (env.volumeDir v)).Functional :=
    FileTree.functional_filter _ hkept.functional
  have hclosed := FileTree.closed_removeTree hkept.closed (p := env.volumeDir v) (by simp [StorageEnv.volumeDir])
  have hsource : ∀ rest, (s.files.removeTree (env.volumeDir v)).get (snapshotPath env v name ++ rest) =
      s.files.get (snapshotPath env v name ++ rest) := by
    intro rest
    refine FileTree.removeTree_frame fun hcomparable => hapart ?_
    rcases hcomparable with hpre | hpre
    · exact FileTree.comparable_of_isPrefix_append hpre
    · exact Or.inl ((List.prefix_append _ rest).trans hpre)
  have hcleared : ∀ rest,
      (s.files.removeTree (env.volumeDir v)).get (env.volumeDir v ++ rest) = none := by
    intro rest
    rw [FileTree.get_removeTree, if_pos (List.prefix_append _ rest)]
  obtain ⟨files, hcopy⟩ : ∃ files, (s.files.removeTree (env.volumeDir v)).copyTree
      (snapshotPath env v name) (env.volumeDir v) = some files := by
    refine FileTree.exists_copyTree hfunctional hclosed hapart ?_ (fun q hq => ?_) ?_
    · have hsame := hsource []
      rw [List.append_nil] at hsame
      rw [hsame, hsnapshot]
    · by_cases hqe : q = env.volumeDir v
      · have hnone := hcleared []
        rw [List.append_nil] at hnone
        exact Or.inl (hqe ▸ hnone)
      · refine Or.inr ?_
        rw [FileTree.get_removeTree, if_neg, dir_of_leads hkept hsnapshot hq hqe]
        exact fun hpre => hqe (List.IsPrefix.eq_of_length hq (le_antisymm hq.length_le hpre.length_le))
    · intro rest n m _ hm
      rw [hcleared] at hm
      cases hm
  refine ⟨{ s with files := files }, ?_, fun rest => ?_⟩
  · rw [restoreSnapshot, follow_snapshot hkept hname hsnapshot]
    dsimp only
    rw [hcopy, if_neg, Option.map_some]
    rintro ⟨hpresent, hnotDir⟩
    rcases hdir with hnone | hdir
    · rw [FileTree.isPresent, hnone] at hpresent
      exact absurd hpresent Bool.false_ne_true
    · exact hnotDir (decide_eq_true hdir)
  · rw [FileTree.get_copyTree hfunctional hclosed hapart hcopy rest, hsource, hcleared, Option.or_none]

/-- Into another volume a snapshot is copied beside what is there. -/
theorem restoreSnapshotToNewVolume_iff (hvolume : volumeName w ≠ ".snapshots") (hkept : WellKept s.files)
    (hname : IsFileName name) (hsnapshot : s.files.get (snapshotPath env v name) = some .dir) :
    (∃ s', s.restoreSnapshotToNewVolume env v name w none = some (.ok (), s') ∧
      ∀ rest, s'.files.get (env.volumeDir w ++ rest) =
        s.files.get (snapshotPath env v name ++ rest)) ↔
    ∀ rest m, s.files.get (env.volumeDir w ++ rest) = some m →
      ∃ n, s.files.get (snapshotPath env v name ++ rest) = some n ∧ (n = .dir ↔ m = .dir) := by
  have hapart : ¬ Comparable (snapshotPath env v name) (env.volumeDir w) := fun hcomparable =>
    not_comparable_volumeDir hvolume hcomparable.symm
  have hcall : ∀ s', s.restoreSnapshotToNewVolume env v name w none = some (.ok (), s') ↔
      ∃ files, s.files.copyTree (snapshotPath env v name) (env.volumeDir w) = some files ∧
        { s with files := files } = s' := by
    intro s'
    rw [restoreSnapshotToNewVolume, follow_snapshot hkept hname hsnapshot]
    dsimp only
    rw [Option.map_eq_some_iff]
    simp only [Prod.mk.injEq, true_and]
  constructor
  · rintro ⟨s', hok, hsame⟩ rest m hm
    obtain ⟨files, hcopy, rfl⟩ := (hcall s').mp hok
    have hget := (FileTree.get_copyTree hkept.functional hkept.closed hapart hcopy rest).symm.trans
      (hsame rest)
    rw [hm] at hget
    cases hn : s.files.get (snapshotPath env v name ++ rest) with
    | none =>
      rw [hn] at hget
      cases hget
    | some n => exact ⟨n, rfl, FileTree.compatible_of_copyTree hkept.functional hkept.closed hapart
        hcopy rest n m hn hm⟩
  · intro hwithin
    obtain ⟨files, hcopy⟩ : ∃ files, s.files.copyTree (snapshotPath env v name) (env.volumeDir w) =
        some files := by
      refine FileTree.exists_copyTree hkept.functional hkept.closed hapart hsnapshot (fun q hq => ?_) ?_
      · by_cases hqe : q = env.volumeDir w
        · cases hm : s.files.get (env.volumeDir w) with
          | none => exact Or.inl (hqe ▸ hm)
          | some m =>
            obtain ⟨n, hn, hkind⟩ := hwithin [] m (by rw [List.append_nil, hm])
            rw [List.append_nil, hsnapshot] at hn
            exact Or.inr (by rw [hqe, hm, hkind.mp (Option.some.inj hn).symm])
        · exact Or.inr (dir_of_leads hkept hsnapshot hq hqe)
      · intro rest n m hn hm
        obtain ⟨n', hn', hkind⟩ := hwithin rest m hm
        rw [hn] at hn'
        exact Option.some.inj hn' ▸ hkind
    refine ⟨{ s with files := files }, (hcall _).mpr ⟨files, hcopy, rfl⟩, fun rest => ?_⟩
    rw [FileTree.get_copyTree hkept.functional hkept.closed hapart hcopy rest]
    cases hm : s.files.get (env.volumeDir w ++ rest) with
    | none => rw [Option.or_none]
    | some m =>
      obtain ⟨n, hn, -⟩ := hwithin rest m hm
      rw [hn, Option.some_or]

/-- Where there is no directory to clear, every failure leaves what is there. -/
theorem restoreSnapshotWith_of_not_dir (hkept : WellKept s.files) (hname : IsFileName name)
    (hsnapshot : s.files.get (snapshotPath env v name) = some .dir)
    (hnotDir : s.files.get (env.volumeDir v) ≠ some .dir) {fault : RestoreFault} {e : StorageError}
    {s' : StorageState} (hcall : s.restoreSnapshotWith env v name (some fault) = some (.error e, s'))
    {rest : Path} {n : Node Content} (hn : s.files.get (env.volumeDir v ++ rest) = some n) :
    s'.files.get (env.volumeDir v ++ rest) = some n := by
  -- What is in the place of the volume is a file.
  have hrest : rest = [] := by
    by_contra hrest
    exact hnotDir (hkept.closed.nested _ _ n hn (List.prefix_append _ rest) fun heq => hrest
      (List.append_cancel_left (heq.symm.trans (List.append_nil _).symm)))
  subst hrest
  rw [List.append_nil] at hn ⊢
  unfold restoreSnapshotWith at hcall
  rw [follow_snapshot hkept hname hsnapshot] at hcall
  cases fault with
  | unseen =>
    cases hcall
    exact hn
  | volumeUnseen =>
    obtain ⟨files, -, heq⟩ := Option.map_eq_some_iff.mp hcall
    cases heq
  | removal message kept =>
    dsimp only at hcall
    split_ifs at hcall
    cases hcall
    refine (Assoc.get_filter (fun path => decide (¬ env.volumeDir v <+: path ∨
      path = env.volumeDir v ∨ kept path)) s.files (env.volumeDir v)).trans ?_
    rw [if_pos (decide_eq_true (Or.inr (Or.inl rfl)))]
    exact hn
  | copy message stop =>
    dsimp only at hcall
    rw [if_pos ⟨by rw [FileTree.isPresent, hn]; rfl, fun hdir => hnotDir (of_decide_eq_true hdir)⟩]
      at hcall
    cases hcall

/-- What leads to a cleared volume is still there, and nothing is in it. -/
theorem get_removeTree_volume (hkept : WellKept s.files)
    (hsnapshot : s.files.get (snapshotPath env v name) = some .dir) :
    (∀ q, q <+: env.volumeDir v → q ≠ env.volumeDir v →
      (s.files.removeTree (env.volumeDir v)).get q = some .dir) ∧
    ∀ rest, (s.files.removeTree (env.volumeDir v)).get (env.volumeDir v ++ rest) = none := by
  refine ⟨fun q hq hne => ?_, fun rest => ?_⟩
  · rw [FileTree.get_removeTree, if_neg, dir_of_leads hkept hsnapshot hq hne]
    exact fun hpre => hne (List.IsPrefix.eq_of_length hq (le_antisymm hq.length_le hpre.length_le))
  · rw [FileTree.get_removeTree, if_pos (List.prefix_append _ rest)]

/-- **What a volume keeps when its restoration fails**: everything, if there is a directory, exactly when
the failure spares it. -/
theorem restoreSnapshotWith_iff (hvolume : volumeName v ≠ ".snapshots") (hkept : WellKept s.files)
    (hname : IsFileName name) (hsnapshot : s.files.get (snapshotPath env v name) = some .dir)
    (fault : RestoreFault) :
    (∀ e s', s.restoreSnapshotWith env v name (some fault) = some (.error e, s') →
      ∀ rest n, s.files.get (env.volumeDir v ++ rest) = some n →
        s'.files.get (env.volumeDir v ++ rest) = some n) ↔
    (s.files.get (env.volumeDir v) = some .dir → fault.Spares env s v name) := by
  by_cases hdir : s.files.get (env.volumeDir v) = some .dir
  · have hfollow := follow_snapshot hkept hname hsnapshot
    obtain ⟨hway, hnone⟩ := get_removeTree_volume hkept hsnapshot
    have hpresent : ¬ (s.files.isPresent (env.volumeDir v) = true ∧ ¬ s.files.isDir (env.volumeDir v)) :=
      fun hboth => hboth.2 (decide_eq_true hdir)
    rw [forall_prop_of_true hdir]
    cases fault with
    | unseen =>
      refine iff_of_true (fun e s' hcall rest n hn => ?_) trivial
      unfold restoreSnapshotWith at hcall
      rw [hfollow] at hcall
      cases hcall
      exact hn
    | volumeUnseen =>
      refine iff_of_true (fun e s' hcall => ?_) trivial
      unfold restoreSnapshotWith at hcall
      rw [hfollow] at hcall
      obtain ⟨files, -, heq⟩ := Option.map_eq_some_iff.mp hcall
      cases heq
    | removal message kept =>
      have hget : ∀ q, FileTree.get (s.files.filter fun e => ¬ env.volumeDir v <+: e.1 ∨
          e.1 = env.volumeDir v ∨ kept e.1) q = if ¬ env.volumeDir v <+: q ∨ q = env.volumeDir v ∨
            kept q then s.files.get q else none := fun q =>
        (Assoc.get_filter (fun path => decide (¬ env.volumeDir v <+: path ∨
          path = env.volumeDir v ∨ kept path)) s.files q).trans (by simp only [decide_eq_true_eq]; rfl)
      have hthere : s.files.isPresent (env.volumeDir v) = true := by
        rw [FileTree.isPresent, hdir]
        rfl
      unfold restoreSnapshotWith
      rw [hfollow]
      dsimp only
      rw [if_pos hthere]
      constructor
      · intro h rest n hrest hn
        have hleft := h _ _ rfl rest n hn
        by_contra hlost
        rw [hget, if_neg] at hleft
        · cases hleft
        · rintro (hfar | hself | hkeep)
          · exact hfar (List.prefix_append _ rest)
          · exact hrest (List.append_cancel_left (hself.trans (List.append_nil _).symm))
          · exact hlost hkeep
      · rintro hspares e s' ⟨⟩ rest n hn
        rw [hget, if_pos, hn]
        by_cases hrest : rest = []
        · exact Or.inr (Or.inl (by rw [hrest, List.append_nil]))
        · exact Or.inr (Or.inr (hspares rest n hrest hn))
    | copy message stop =>
      unfold restoreSnapshotWith
      rw [hfollow]
      dsimp only
      rw [if_neg hpresent]
      cases stop with
      | directories made =>
        -- The directory of the volume is not made again.
        refine iff_of_false (fun h => ?_) id
        have hstay : (s.files.removeTree (env.volumeDir v)).copyTreeUntil (snapshotPath env v name)
            (env.volumeDir v) (.directories made) = some (s.files.removeTree (env.volumeDir v)) := by
          refine FileTree.foldlM_createDir_of_dirs fun q hq => hway q ?_ ?_
          · exact (List.mem_inits q _).mp (List.mem_of_mem_take hq)
          · rintro rfl
            exact FileTree.notMem_take_inits hq
        rw [hstay] at h
        have hlost := h _ _ rfl [] .dir (by rw [List.append_nil, hdir])
        dsimp only at hlost
        rw [hnone] at hlost
        cases hlost
      | entries copied cut =>
        have hapart : ¬ Comparable (snapshotPath env v name) (env.volumeDir v) := fun hcomparable =>
          not_comparable_volumeDir hvolume hcomparable.symm
        have hfunctional : (s.files.removeTree (env.volumeDir v)).Functional :=
          FileTree.functional_filter _ hkept.functional
        have hpassable : ∀ q, q <+: env.volumeDir v →
            (s.files.removeTree (env.volumeDir v)).Passable q := by
          intro q hq
          by_cases hne : q = env.volumeDir v
          · have hgone := hnone []
            rw [List.append_nil] at hgone
            exact Or.inl (hne ▸ hgone)
          · exact Or.inr (hway q hq hne)
        obtain ⟨files, hcopy, hroot, hget⟩ := FileTree.exists_copyTreeUntil_entries hfunctional
          (FileTree.closed_removeTree hkept.closed (p := env.volumeDir v) (by simp [StorageEnv.volumeDir]))
          hapart hpassable hnone copied cut
        rw [hcopy]
        rw [FileTree.copiedUntil_removeTree hapart] at hget
        constructor
        · exact fun h rest n hrest hn => (hget rest hrest n).mp (h _ _ rfl rest n hn)
        · rintro hspares e s' ⟨⟩ rest n hn
          by_cases hrest : rest = []
          · subst hrest
            rw [List.append_nil] at hn ⊢
            rw [hdir] at hn
            exact hroot.trans hn
          · exact (hget rest hrest n).mpr (hspares rest n hrest hn)
  · refine iff_of_true (fun e s' hcall rest n hn => ?_) fun h => absurd h hdir
    exact restoreSnapshotWith_of_not_dir hkept hname hsnapshot hdir hcall hn

end StorageState

/-! ## Faithful restores -/

section Faithful

variable (env : StorageEnv) (s : StorageState) (v w : ResourceIri) (name : String)

/-- A snapshot of a volume is restored to it as it was taken, whatever has become of the volume. -/
def RestoresBack : Prop :=
  ∀ atTime info s₁ files,
    s.createSnapshotAt env v atTime none = some (.ok info, s₁) → WellKept files →
    (∀ q, ¬ env.volumeDir v <+: q → files.get q = s₁.files.get q) → files.Passable (env.volumeDir v) →
    ∃ s₂, { s₁ with files := files : StorageState }.restoreSnapshot env v (env.formatTs info.createdAt)
        none = some (.ok (), s₂) ∧
      ∀ rest, s₂.files.get (env.volumeDir v ++ rest) = s.files.get (env.volumeDir v ++ rest)

/-- A snapshot is restored to another volume as it is. -/
def RestoresInto : Prop :=
  ∃ s', s.restoreSnapshotToNewVolume env v name w none = some (.ok (), s') ∧
    ∀ rest, s'.files.get (env.volumeDir w ++ rest) =
      s.files.get (StorageState.snapshotPath env v name ++ rest)

/-- When a restore fails, the previous content of the volume is still there. -/
def SurvivesFailure (fault : RestoreFault) : Prop :=
  ∀ e s', s.restoreSnapshotWith env v name (some fault) = some (.error e, s') →
    ∀ rest n, s.files.get (env.volumeDir v ++ rest) = some n →
      s'.files.get (env.volumeDir v ++ rest) = some n

end Faithful

open StorageState (sampleStorage)

/-- A node whose clock has a text for the time of one snapshot. -/
def timedStorage : StorageEnv :=
  { sampleStorage with
    formatTs := fun ts =>
      if ts = 1751335200123456 then "2025-07-01T02-00-00.123456Z"
      else String.ofList (List.replicate (Encodable.encode ts + 1) '0') }

theorem namesTimes_timedStorage : NamesTimes timedStorage where
  injective := by
    intro ts ts' h
    rw [timedStorage] at h
    dsimp only at h
    split_ifs at h with hts hts' hts'
    · rw [hts, hts']
    · simp [← String.toList_inj, List.replicate_succ] at h
    · simp [← String.toList_inj, List.replicate_succ] at h
    · rw [String.ofList_inj, List.replicate_inj] at h
      exact Encodable.encode_injective (Nat.succ.inj h.1)
  isFileName := by
    intro ts
    rw [timedStorage]
    dsimp only
    split_ifs
    · exact ⟨by decide, by decide⟩
    · refine ⟨⟨?_, ?_, ?_⟩, ?_⟩
      all_goals simp [← String.toList_inj, List.replicate_succ]

/-- A volume with one snapshot. -/
def photosThere : Files :=
  [([], .dir), (["data"], .dir), (["data", ".snapshots"], .dir), (["data", ".snapshots", "photos"], .dir),
    (["data", ".snapshots", "photos", "2025-07-01T02-00-00.123456Z"], .dir),
    (["data", ".snapshots", "photos", "2025-07-01T02-00-00.123456Z", "cat.jpg"], .file ⟨[1, 2, 3], 0⟩),
    (["data", "photos"], .dir), (["data", "photos", "cat.jpg"], .file ⟨[4, 5, 6], 0⟩)]

end Picloud
