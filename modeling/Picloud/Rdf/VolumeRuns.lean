import Picloud.Rdf.Facts

/-!
# The snapshot and backup status of a volume

Reference: the handlers of `SnapshotCreated`, `SnapshotDeleted`, `BackupCompleted` and `BackupFailed`, and the
placeholders of a declared volume, of `picloud-rdf/src/implementation.rs`.

Each handler inserts the new value of a status and removes none, and a deletion does not change the count. The
first event about a volume therefore leaves the graph behind what the events say.
-/

namespace Picloud

open Lib

/-! ## What the events say -/

/-- The events about the snapshots and backups of volumes. -/
def volumeTypes : List String := ["SnapshotCreated", "SnapshotDeleted", "BackupCompleted", "BackupFailed"]

/-- The volume of an event. -/
def volumeOf (event : EventEnvelope) : String := event.iriOrSource "volume_iri"

/-- The events of a kind about a volume. -/
def volumeEvents (v : String) (types : List String) (events : List EventEnvelope) : List EventEnvelope :=
  events.filter fun e => volumeOf e = v ∧ e.eventType ∈ types

/-- The status of the last backup. -/
def expectedBackup (v : String) (events : List EventEnvelope) : String :=
  match (volumeEvents v ["BackupCompleted", "BackupFailed"] events).getLast? with
  | none => "none"
  | some e => if e.eventType = "BackupCompleted" then "success" else "failed"

/-- The graph tells of the volume what its last events say. -/
structure VolumeFollows (env : ProjectorEnv) (v : String) (events : List EventEnvelope) (s : Store) :
    Prop where
  backupStatus : ∀ o, Has s v "lastBackupStatus" o ↔ o = simple (expectedBackup v events)
  snapshotStatus : ∃ o, Has s v "lastSnapshotStatus" o ∧ ∀ o', Has s v "lastSnapshotStatus" o' → o' = o
  backupAt : ∀ o, Has s v "lastBackupAt" o →
    ∃ e, (volumeEvents v ["BackupCompleted"] events).getLast? = some e ∧
      o = simple (e.strD "completed_at" (env.rfc3339 e.timestamp))
  snapshotAt : ∀ o, Has s v "lastSnapshotAt" o →
    ∃ e, (volumeEvents v ["SnapshotCreated"] events).getLast? = some e ∧
      o = simple (e.strD "created_at" (env.rfc3339 e.timestamp))
  snapshotPath : ∀ o, Has s v "lastSnapshotPath" o →
    ∃ e, (volumeEvents v ["SnapshotCreated"] events).getLast? = some e ∧
      o = simple (e.strD "snapshot_path" "")
  snapshotCount : (currentSnapshotCount env v s : ℤ) =
    (volumeEvents v ["SnapshotCreated"] events).length - (volumeEvents v ["SnapshotDeleted"] events).length

/-! ## Operations on one volume -/

/-- The properties in question. -/
def volumeNames : List String :=
  ["lastBackupStatus", "lastSnapshotStatus", "lastBackupAt", "lastSnapshotAt", "lastSnapshotPath",
    "snapshotCount"]

/-- The operation gives values of the properties to one volume only, and takes at most a count. -/
def OwnFacts (v : String) : Op → Prop
  | .put q => q.subject = .named ⟨v⟩ ∨ ∀ name ∈ volumeNames, q.predicate ≠ ⟨pc name⟩
  | .del p => p.subject = some (.named ⟨v⟩) ∧ p.predicate = some ⟨pc "snapshotCount"⟩
  | _ => True

section OwnFacts

variable {v w name : String} {o : Term} {s : Store}

@[simp] theorem ownFacts_named (context iri : String) : OwnFacts v (.named context iri) := trivial

variable {predicate subject : String}

@[simp] theorem ownFacts_put {object : Term} {graph : GraphName} :
    OwnFacts v (.put (quad subject predicate object graph)) ↔
      subject = v ∨ ∀ name ∈ volumeNames, predicate ≠ pc name := by
  simp [OwnFacts, quad]

@[simp] theorem ownFacts_insertTriple {object : Term} :
    AllOps (OwnFacts v) (insertTriple subject predicate object) ↔
      subject = v ∨ ∀ name ∈ volumeNames, predicate ≠ pc name := by
  simp [insertTriple]

@[simp] theorem ownFacts_insertNode {context object : String} :
    AllOps (OwnFacts v) (insertNode subject predicate context object) ↔
      subject = v ∨ ∀ name ∈ volumeNames, predicate ≠ pc name := by
  simp [insertNode]

/-- Another volume is left alone. -/
theorem OwnFacts.has_effect {op : Op} (h : OwnFacts w op) (hne : w ≠ v) (hname : name ∈ volumeNames) :
    Has (op.effect s) v name o ↔ Has s v name o := by
  cases op with
  | put q =>
    refine Store.mem_insert.trans (or_iff_left ?_)
    rintro rfl
    rcases h with hsubject | hpred
    · exact hne (by simpa [quad, eq_comm] using hsubject)
    · exact hpred name hname rfl
  | del p =>
    refine Store.mem_removeIf.trans (and_iff_left ?_)
    rw [Bool.eq_false_iff, Ne, Pattern.matches_iff, h.1, admits_some]
    rintro ⟨hsubject, -⟩
    exact hne (by simpa [quad] using hsubject)
  | _ => exact Iff.rfl

/-- No value is taken but a count. -/
theorem OwnFacts.has_mono {op : Op} (h : OwnFacts w op) (hname : name ≠ "snapshotCount")
    (hhas : Has s v name o) : Has (op.effect s) v name o := by
  cases op with
  | put q => exact Store.mem_insert.mpr (Or.inl hhas)
  | del p =>
    refine Store.mem_removeIf.mpr ⟨hhas, ?_⟩
    rw [Bool.eq_false_iff, Ne, Pattern.matches_iff, h.2, admits_some]
    rintro ⟨-, hpred, -⟩
    exact hname (by simpa [quad, eq_comm] using hpred)
  | _ => exact hhas

end OwnFacts

/-! ## The four handlers -/

section Handlers

variable {env : ProjectorEnv} {event : EventEnvelope} {s : Store} {v name : String} {o : Term}

theorem ownFacts_volumeEvent {iri volumeIri className timeProperty time : String}
    (htime : timeProperty ∈ ["completedAt", "deletedAt"]) :
    AllOps (OwnFacts v) (volumeEvent iri volumeIri className timeProperty time) := by
  simp only [List.mem_cons, List.not_mem_nil, or_false] at htime
  rcases htime with rfl | rfl <;> simp [volumeEvent, volumeNames]

theorem script_snapshotDeleted (htype : event.eventType = "SnapshotDeleted") :
    script env event = projectSnapshotDeleted env event := by
  rw [script, htype]
  rfl

theorem script_backupCompleted (htype : event.eventType = "BackupCompleted") :
    script env event = projectBackupCompleted env event := by
  rw [script, htype]
  rfl

theorem script_backupFailed (htype : event.eventType = "BackupFailed") :
    script env event = projectBackupFailed env event := by
  rw [script, htype]
  rfl

/-- All operations of the handlers are about their volume. -/
theorem ownFacts_script (htype : event.eventType ∈ volumeTypes) :
    ∀ step ∈ script env event, step.All (OwnFacts (volumeOf event)) := by
  simp only [volumeTypes, List.mem_cons, List.not_mem_nil, or_false] at htype
  rcases htype with htype | htype | htype | htype
  · rw [script_snapshotCreated htype, projectSnapshotCreated]
    simp only [List.forall_mem_cons, List.not_mem_nil, IsEmpty.forall_iff, implies_true, and_true]
    constructor
    · simp [Step.All, volumeOf, volumeNames]
    · simp [Step.All, countSnapshot, OwnFacts, volumeOf, quad, Quad.pattern]
  · rw [script_snapshotDeleted htype, projectSnapshotDeleted]
    simpa [Step.All] using ownFacts_volumeEvent (by simp)
  · rw [script_backupCompleted htype, projectBackupCompleted]
    simpa [Step.All, volumeOf] using ownFacts_volumeEvent (by simp)
  · rw [script_backupFailed htype, projectBackupFailed]
    simpa [Step.All, volumeOf, volumeNames] using allOps_tryInsertNode (by simp [volumeNames])

/-- Another volume is left alone. -/
theorem has_projected_of_ne (htype : event.eventType ∈ volumeTypes) (hne : volumeOf event ≠ v)
    (hname : name ∈ volumeNames) : Has (projected env s event) v name o ↔ Has s v name o := by
  rw [projected_eq]
  exact runScript_invariant_of_all (I := fun t => Has t v name o ↔ Has s v name o)
    (ownFacts_script htype) (fun op hop t ht => (hop.has_effect hne hname).trans ht) Iff.rfl

/-- Only a count is taken. -/
theorem has_projected_mono (htype : event.eventType ∈ volumeTypes) (hname : name ≠ "snapshotCount")
    (h : Has s v name o) : Has (projected env s event) v name o := by
  rw [projected_eq]
  exact runScript_invariant_of_all (I := fun t => Has t v name o) (ownFacts_script htype)
    (fun op hop t ht => hop.has_mono hname ht) h

/-- A snapshot is a success. -/
theorem has_success (htype : event.eventType = "SnapshotCreated")
    (hok : (projectStore env s event).1 = .ok ()) :
    Has (projected env s event) (volumeOf event) "lastSnapshotStatus" (simple "success") := by
  obtain ⟨hops, -, heq⟩ := projectStore_ops_read s ((script_snapshotCreated htype).trans rfl) hok
  rw [heq]
  refine mem_runOps_of_mem (fun p hp => ?_) (mem_runOps_of_put (runOps_ok_iff.mp hops) ?_ ?_ s)
  · -- the removal of the count does not take it
    have hcount : p.predicate = some ⟨pc "snapshotCount"⟩ := by
      simp only [countSnapshot, List.cons_append, List.nil_append, List.mem_cons, reduceCtorEq, false_or,
        Op.del.injEq, del_notMem_insertTriple, or_false] at hp
      rw [hp]
      rfl
    rw [Bool.eq_false_iff, Ne, Pattern.matches_iff, hcount, admits_some]
    simp [quad]
  · simp
  · simp [volumeOf]

/-- The operation gives no count. -/
def NoCount : Op → Prop
  | .put q => q.predicate ≠ ⟨pc "snapshotCount"⟩
  | _ => True

@[simp] theorem noCount_insertTriple {subject predicate : String} {object : Term} :
    AllOps NoCount (insertTriple subject predicate object) ↔ predicate ≠ pc "snapshotCount" := by
  simp [insertTriple, NoCount, quad]

@[simp] theorem noCount_insertNode {subject predicate context object : String} :
    AllOps NoCount (insertNode subject predicate context object) ↔ predicate ≠ pc "snapshotCount" := by
  simp [insertNode, NoCount]

/-- Only a snapshot gives a count. -/
theorem noCount_script (htype : event.eventType ∈ volumeTypes) (hne : event.eventType ≠ "SnapshotCreated") :
    ∀ step ∈ script env event, step.All NoCount := by
  simp only [volumeTypes, List.mem_cons, List.not_mem_nil, or_false, hne, false_or] at htype
  rcases htype with htype | htype | htype
  · rw [script_snapshotDeleted htype, projectSnapshotDeleted]
    simp [Step.All, volumeEvent]
  · rw [script_backupCompleted htype, projectBackupCompleted]
    simp [Step.All, volumeEvent]
  · rw [script_backupFailed htype, projectBackupFailed]
    simpa [Step.All] using allOps_tryInsertNode (by simp)

theorem NoCount.not_has_effect {op : Op} (h : NoCount op) (hnone : ¬ Has s v "snapshotCount" o) :
    ¬ Has (op.effect s) v "snapshotCount" o := by
  cases op with
  | put q =>
    refine fun hhas => (Store.mem_insert.mp hhas).elim hnone ?_
    rintro rfl
    exact h rfl
  | del p => exact fun hhas => hnone (Store.mem_removeIf.mp hhas).1
  | _ => exact hnone

theorem not_has_count (htype : event.eventType ∈ volumeTypes) (hne : event.eventType ≠ "SnapshotCreated")
    (h : ¬ Has s v "snapshotCount" o) : ¬ Has (projected env s event) v "snapshotCount" o := by
  rw [projected_eq]
  exact runScript_invariant_of_all (I := fun t => ¬ Has t v "snapshotCount" o)
    (noCount_script htype hne) (fun op hop t ht => hop.not_has_effect ht) h

end Handlers

/-! ## The declaration -/

section Declaration

variable {env : ProjectorEnv} {decl : EventEnvelope} {v name : String} {o : Term}

/-- A declared volume has the two placeholders. -/
theorem has_declared (htype : decl.eventType = "ResourceDeclared")
    (hv : decl.iriOrSource "resource_iri" = v)
    (hvol : decl.strD "resource_type" "Resource" ∈ ["Volume", "volume"])
    (hok : (projectStore env [] decl).1 = .ok ()) (hname : name ∈ volumeNames) :
    Has (projected env [] decl) v name o ↔
      name ∈ ["lastBackupStatus", "lastSnapshotStatus"] ∧ o = simple "none" := by
  have hscript : script env decl = projectResourceDeclared env decl := by
    rw [script, htype]
    rfl
  obtain ⟨hiff, heq⟩ := projectStore_ops [] (hscript.trans rfl)
  have htypes : declareByType env decl v (decl.strD "resource_type" "Resource") = declareVolume env decl v := by
    simp only [List.mem_cons, List.not_mem_nil, or_false] at hvol
    rcases hvol with hvol | hvol <;> rw [hvol] <;> rfl
  rw [hv, htypes] at hiff heq
  rw [heq, Has, mem_runOps_of_puts (hiff.mp hok)]
  · simp only [volumeNames, List.mem_cons, List.not_mem_nil, or_false] at hname
    rcases hname with rfl | rfl | rfl | rfl | rfl | rfl <;>
      simp [declareResource, declareVolume, optionalJson, insertTripleInGraph, quad]
  · simp [declareResource, declareVolume, optionalJson, insertTripleInGraph]

end Declaration

/-! ## Runs -/

section Run

variable {env : ProjectorEnv} {v : String} {h : List EventEnvelope} {s : Store} {e : EventEnvelope}

@[simp] theorem mem_volumeEvents {types : List String} {events : List EventEnvelope} :
    e ∈ volumeEvents v types events ↔ e ∈ events ∧ volumeOf e = v ∧ e.eventType ∈ types := by
  simp [volumeEvents]

theorem volumeEvents_eq_nil {types : List String} (hnone : ∀ e ∈ h, volumeOf e ≠ v) :
    volumeEvents v types h = [] := by
  refine List.filter_eq_nil_iff.mpr fun e he => ?_
  simp [hnone e he]

/-- Without a value the query finds no count. -/
theorem currentSnapshotCount_eq_zero (hnone : ∀ o, ¬ Has s v "snapshotCount" o) :
    currentSnapshotCount env v s = 0 := by
  have hnil : s.quadsForPattern (valuesOf v (pc "snapshotCount") (some .default)) = [] := by
    refine List.eq_nil_iff_forall_not_mem.mpr fun q hq => ?_
    obtain ⟨hmem, hmatch⟩ := Store.mem_quadsForPattern.mp hq
    obtain ⟨hsubject, hpred, hgraph⟩ := valuesOf_matches_iff.mp hmatch
    refine hnone q.object ?_
    have heq : quad v (pc "snapshotCount") q.object .default = q := by rw [quad, ← hsubject, ← hpred, ← hgraph]
    rwa [Has, heq]
  have hscan : env.scan [] = [] := List.perm_nil.mp (env.scan_perm [])
  rw [currentSnapshotCount, hnil, hscan]
  rfl

/-- What a volume looks like after its declaration and other events: both placeholders stay, a snapshot adds its
status beside the placeholder, and only a snapshot starts a count. -/
structure VolumeAfter (v : String) (h : List EventEnvelope) (s : Store) : Prop where
  backupNone : Has s v "lastBackupStatus" (simple "none")
  snapshotNone : Has s v "lastSnapshotStatus" (simple "none")
  success : ∀ e ∈ volumeEvents v ["SnapshotCreated"] h, Has s v "lastSnapshotStatus" (simple "success")
  count : volumeEvents v ["SnapshotCreated"] h = [] → ∀ o, ¬ Has s v "snapshotCount" o
  untouched : (∀ e ∈ h, volumeOf e ≠ v) → ∀ name ∈ volumeNames, ∀ o, Has s v name o ↔
    name ∈ ["lastBackupStatus", "lastSnapshotStatus"] ∧ o = simple "none"

theorem VolumeAfter.step (hs : VolumeAfter v h s) (htype : e.eventType ∈ volumeTypes)
    (hok : (projectStore env s e).1 = .ok ()) : VolumeAfter v (h ++ [e]) (projected env s e) := by
  refine ⟨has_projected_mono htype (by decide) hs.backupNone,
    has_projected_mono htype (by decide) hs.snapshotNone, fun e' he' => ?_, fun hnil o => ?_,
    fun hnone name hname o => ?_⟩
  · rw [mem_volumeEvents, List.mem_append, List.mem_singleton] at he'
    obtain ⟨hold | rfl, hv, hcreated⟩ := he'
    · exact has_projected_mono htype (by decide) (hs.success e' (mem_volumeEvents.mpr ⟨hold, hv, hcreated⟩))
    · exact hv ▸ has_success (List.mem_singleton.mp hcreated) hok
  · rw [volumeEvents, List.filter_append, List.append_eq_nil_iff] at hnil
    have hcount := hs.count hnil.1 o
    by_cases hcreated : e.eventType = "SnapshotCreated"
    · -- a snapshot of another volume
      have hne : volumeOf e ≠ v := by
        intro hv
        simp [hv, hcreated] at hnil
      rwa [has_projected_of_ne htype hne (by simp [volumeNames])]
    · exact not_has_count htype hcreated hcount
  · rw [has_projected_of_ne htype (hnone e (by simp)) hname]
    exact hs.untouched (fun e' he' => hnone e' (List.mem_append_left _ he')) name hname o

/-- A graph in which the volume is untouched follows events about other volumes. -/
theorem VolumeAfter.follows (hs : VolumeAfter v h s) (hnone : ∀ e ∈ h, volumeOf e ≠ v) :
    VolumeFollows env v h s := by
  have huntouched := hs.untouched hnone
  have hevents : ∀ types, volumeEvents v types h = [] := fun types => volumeEvents_eq_nil hnone
  have habsent : ∀ name ∈ volumeNames, name ∉ ["lastBackupStatus", "lastSnapshotStatus"] →
      ∀ o, ¬ Has s v name o := fun name hname hother o hhas => hother ((huntouched name hname o).mp hhas).1
  constructor
  case backupStatus =>
    intro o
    rw [huntouched "lastBackupStatus" (by simp [volumeNames]) o, expectedBackup, hevents]
    simp
  case snapshotStatus =>
    refine ⟨simple "none", hs.snapshotNone, fun o ho => ?_⟩
    exact ((huntouched "lastSnapshotStatus" (by simp [volumeNames]) o).mp ho).2
  case backupAt => exact fun o ho => (habsent _ (by simp [volumeNames]) (by simp) o ho).elim
  case snapshotAt => exact fun o ho => (habsent _ (by simp [volumeNames]) (by simp) o ho).elim
  case snapshotPath => exact fun o ho => (habsent _ (by simp [volumeNames]) (by simp) o ho).elim
  case snapshotCount =>
    rw [hevents, hevents, currentSnapshotCount_eq_zero (hs.count (hevents _))]
    rfl

/-- A graph that follows the events has met none about the volume. -/
theorem VolumeAfter.not_mem_of_follows (hs : VolumeAfter v h s) (hfollows : VolumeFollows env v h s)
    (htypes : ∀ e ∈ h, e.eventType ∈ volumeTypes) : ∀ e ∈ h, volumeOf e ≠ v := by
  intro e he hv
  have hcreated : volumeEvents v ["SnapshotCreated"] h = [] := by
    -- a snapshot stands beside the placeholder
    refine List.eq_nil_iff_forall_not_mem.mpr fun e' he' => ?_
    obtain ⟨o, -, honly⟩ := hfollows.snapshotStatus
    have hsuccess := honly _ (hs.success e' he')
    rw [← honly _ hs.snapshotNone] at hsuccess
    simp [simple] at hsuccess
  have hdeleted : volumeEvents v ["SnapshotDeleted"] h = [] := by
    have hcount := hfollows.snapshotCount
    rw [currentSnapshotCount_eq_zero (hs.count hcreated), hcreated, List.length_nil] at hcount
    exact List.eq_nil_of_length_eq_zero (by omega)
  have hbackup : volumeEvents v ["BackupCompleted", "BackupFailed"] h = [] := by
    -- after a backup the placeholder is a wrong status
    by_contra hne
    have hnone := (hfollows.backupStatus _).mp hs.backupNone
    rw [expectedBackup, List.getLast?_eq_getLast_of_ne_nil hne] at hnone
    split at hnone
    · simp_all
    · split at hnone <;> simp [simple] at hnone
  have hmem : ∀ types, volumeEvents v types h = [] → e.eventType ∉ types := by
    intro types hnil htype
    have hevent : e ∈ volumeEvents v types h := mem_volumeEvents.mpr ⟨he, hv, htype⟩
    simp [hnil] at hevent
  have htype := htypes e he
  simp only [volumeTypes, List.mem_cons, List.not_mem_nil, or_false] at htype
  rcases htype with htype | htype | htype | htype
  · exact hmem _ hcreated (by simp [htype])
  · exact hmem _ hdeleted (by simp [htype])
  · exact hmem _ hbackup (by simp [htype])
  · exact hmem _ hbackup (by simp [htype])

end Run

/-- **The graph tells of a declared volume what the events say exactly when none of them is about it.** -/
theorem volume_follows_iff (env : ProjectorEnv) (v : String) (decl : EventEnvelope)
    (events : List EventEnvelope) (p : Projector) (hdecl : decl.eventType = "ResourceDeclared")
    (hv : decl.iriOrSource "resource_iri" = v)
    (hvol : decl.strD "resource_type" "Resource" ∈ ["Volume", "volume"])
    (htypes : ∀ e ∈ events, e.eventType ∈ volumeTypes)
    (hrun : Projector.new.replayLoop env (decl :: events) = (.ok (), p)) :
    VolumeFollows env v events p.store ↔ ∀ e ∈ events, volumeOf e ≠ v := by
  rw [Projector.replayLoop] at hrun
  split at hrun
  case h_2 => cases hrun
  case h_1 p₁ hproject =>
  obtain ⟨hok, hstore⟩ := Projector.project_ok hproject
  have hdeclared : ∀ name ∈ volumeNames, ∀ o, Has p₁.store v name o ↔
      name ∈ ["lastBackupStatus", "lastSnapshotStatus"] ∧ o = simple "none" := by
    intro name hname o
    rw [hstore]
    exact has_declared hdecl hv hvol hok hname
  have hstart : VolumeAfter v [] p₁.store := by
    refine ⟨?_, ?_, by simp [volumeEvents], fun _ o => ?_, fun _ => hdeclared⟩
    · exact (hdeclared "lastBackupStatus" (by simp [volumeNames]) _).mpr (by simp)
    · exact (hdeclared "lastSnapshotStatus" (by simp [volumeNames]) _).mpr (by simp)
    · rw [hdeclared "snapshotCount" (by simp [volumeNames]) o]
      simp
  have hafter := Projector.replayLoop_history (R := VolumeAfter v)
    (fun h s e he hs hok => hs.step (htypes e he) hok) hrun hstart
  exact ⟨fun hfollows => hafter.not_mem_of_follows hfollows htypes, hafter.follows⟩

/-! ## Examples -/

/-- An event about a volume. -/
def sampleVolumeEvent (eventType iri : String) : EventEnvelope :=
  sampleEvent eventType none [("volume_iri", .string iri)]

/-- The declaration of a volume. -/
def declaredVolume : EventEnvelope :=
  sampleEvent "ResourceDeclared" none
    [("resource_iri", .string "https://picloud.local/v"), ("resource_type", .string "Volume")]

/-- A snapshot of another volume. -/
theorem volume_follows_other :
    (Projector.new.replayLoop plainEnv [declaredVolume, sampleVolumeEvent "SnapshotCreated" "https://picloud.local/w"]).1
        = .ok () ∧
      VolumeFollows plainEnv "https://picloud.local/v"
        [sampleVolumeEvent "SnapshotCreated" "https://picloud.local/w"]
        (Projector.new.replayLoop plainEnv
          [declaredVolume, sampleVolumeEvent "SnapshotCreated" "https://picloud.local/w"]).2.store := by
  refine ⟨by decide +kernel, ?_⟩
  refine (volume_follows_iff plainEnv _ declaredVolume _ _ rfl rfl (by decide) (by decide) ?_).mpr (by decide)
  rw [Prod.ext_iff]
  exact ⟨by decide +kernel, rfl⟩

/-- A backup fails, and the next one succeeds. -/
def failedThenCompleted : List EventEnvelope :=
  [sampleVolumeEvent "BackupFailed" "https://picloud.local/v",
    sampleVolumeEvent "BackupCompleted" "https://picloud.local/v"]

/-- The volume still has the status of the failure. -/
theorem not_volume_follows_failedThenCompleted :
    (Projector.new.replayLoop plainEnv (declaredVolume :: failedThenCompleted)).1 = .ok () ∧
      ¬ VolumeFollows plainEnv "https://picloud.local/v" failedThenCompleted
        (Projector.new.replayLoop plainEnv (declaredVolume :: failedThenCompleted)).2.store := by
  refine ⟨by decide +kernel, fun h => ?_⟩
  have hfailed := (h.backupStatus (simple "failed")).mp (by decide +kernel)
  have hexpected : expectedBackup "https://picloud.local/v" failedThenCompleted = "success" := by decide
  simp [hexpected, simple] at hfailed

end Picloud
