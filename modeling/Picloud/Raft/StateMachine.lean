import Picloud.Raft.Types

/-!
# The Raft state machines

Reference: `MemStateMachine` and `SledStateMachine` in `picloud-cluster/src/raft.rs`.

Applying a batch records each entry as the last applied one, hands the text of each `Normal` entry
to the apply callback and counts it. The in-memory machine keeps everything in one record; the sled
machine keeps each field under a key of the tree `sm_meta`, and its `apply` is the list of its
single tree writes and callback calls (`ApplyOp`), so that a crash can stop it anywhere.
`Represents` relates the two, and every call keeps it and returns the same.
-/

namespace Picloud

open Lib

/-- The texts of the `Normal` entries, in order. -/
def eventTexts (entries : List Entry) : List String := entries.filterMap Entry.eventJson

@[simp] theorem eventTexts_nil : eventTexts [] = [] := rfl

theorem eventTexts_cons (e : Entry) (es : List Entry) :
    eventTexts (e :: es) = e.eventJson.toList ++ eventTexts es := by
  rw [eventTexts, List.filterMap_cons]
  cases e.eventJson <;> rfl

theorem eventTexts_append (es fs : List Entry) :
    eventTexts (es ++ fs) = eventTexts es ++ eventTexts fs := List.filterMap_append

/-- The responses to a batch, when `count` events were applied before it: a `Normal` entry is
answered with its own number, any other with the number of the last event. -/
def responsesFrom : ℕ → List Entry → List ClientResponse
  | _, [] => []
  | count, e :: es =>
    ⟨count + e.eventJson.toList.length⟩ ::
      responsesFrom (count + e.eventJson.toList.length) es

/-- The membership after an entry. -/
def Entry.membershipAfter (e : Entry) (old : StoredMembership) : StoredMembership :=
  match e.payload with
  | .membership mem => ⟨some e.logId, mem⟩
  | _ => old

/-! ## In memory -/

/-- `MemStateMachineInner`. -/
structure MemStateMachine where
  lastAppliedLog : Option LogId
  lastMembership : StoredMembership
  appliedCount : ℕ
  snapshotData : Bytes
  snapshotMeta : Option SnapshotMeta
deriving DecidableEq

namespace MemStateMachine

/-- `MemStateMachine::new`. -/
def new : MemStateMachine := ⟨none, StoredMembership.default, 0, [], none⟩

/-- `apply`: the responses, the texts handed to the callback, and the new state. -/
def apply (sm : MemStateMachine) : List Entry → List ClientResponse × List String × MemStateMachine
  | [] => ([], [], sm)
  | entry :: entries =>
    let sm := { sm with lastAppliedLog := some entry.logId }
    -- each kind of entry gets a response; only `Normal` ones are counted and delivered
    match entry.payload with
    | .blank =>
      let r := apply sm entries
      (⟨sm.appliedCount⟩ :: r.1, r.2.1, r.2.2)
    | .normal req =>
      let sm := { sm with appliedCount := sm.appliedCount + 1 }
      let r := apply sm entries
      (⟨sm.appliedCount⟩ :: r.1, req.eventJson :: r.2.1, r.2.2)
    | .membership mem =>
      let sm := { sm with lastMembership := ⟨some entry.logId, mem⟩ }
      let r := apply sm entries
      (⟨sm.appliedCount⟩ :: r.1, r.2.1, r.2.2)

/-- `applied_state`. -/
def appliedState (sm : MemStateMachine) : Option LogId × StoredMembership :=
  (sm.lastAppliedLog, sm.lastMembership)

/-- `install_snapshot`. -/
def installSnapshot (sm : MemStateMachine) (m : SnapshotMeta) (snapshot : Bytes) :
    MemStateMachine :=
  { sm with
    lastAppliedLog := m.lastLogId
    lastMembership := m.lastMembership
    snapshotData := snapshot
    snapshotMeta := some m }

/-- `get_current_snapshot`. -/
def getCurrentSnapshot (sm : MemStateMachine) : Option Snapshot :=
  sm.snapshotMeta.map fun m => ⟨m, sm.snapshotData⟩

end MemStateMachine

section

variable (displayLeaderId : LeaderId → String)

/-- The id of a snapshot: leader and index of the last applied entry. -/
def snapshotIdOf (lastApplied : Option LogId) : String :=
  match lastApplied with
  | some id => displayLeaderId id.leaderId ++ "-" ++ toString id.index.toNat
  | none => "empty"

/-- `MemStateMachine::build_snapshot`. -/
def MemStateMachine.buildSnapshot (sm : MemStateMachine) : Snapshot × MemStateMachine :=
  let m : SnapshotMeta :=
    ⟨sm.lastAppliedLog, sm.lastMembership, snapshotIdOf displayLeaderId sm.lastAppliedLog⟩
  (⟨m, sm.snapshotData⟩, { sm with snapshotMeta := some m })

end

/-! ## On disk -/

/-- `SledStateMachine`: the tree `sm_meta`. -/
structure SledStateMachine where
  metaTree : SledTree

/-- One effect of `apply`: a write to the tree, or a call of the apply callback. -/
inductive ApplyOp where
  | insert (key : String) (v : SledValue)
  | callback (eventJson : String)
deriving DecidableEq

/-- The effects of one iteration of the loop of `apply`. -/
def entryOps (entry : Entry) : List ApplyOp :=
  -- the entry is recorded as applied before the callback sees its event
  .insert "sm_last_applied" (.logId entry.logId) ::
    match entry.payload with
    | .blank => []
    | .normal req => [.callback req.eventJson]
    | .membership mem => [.insert "sm_membership" (.membership ⟨some entry.logId, mem⟩)]

/-- The effects of `apply`, in order; the counter is written after the loop. -/
def applyOps : ℕ → List Entry → List ApplyOp
  | count, [] => [.insert "sm_count" (.count count)]
  | count, e :: es => entryOps e ++ applyOps (count + e.eventJson.toList.length) es

/-- A tree and the texts handed to the callback so far. -/
structure ApplyState where
  tree : SledTree
  delivered : List String

/-- One effect. -/
def ApplyOp.exec (s : ApplyState) : ApplyOp → ApplyState
  | .insert key v => { s with tree := s.tree.write key v }
  | .callback eventJson => { s with delivered := s.delivered ++ [eventJson] }

/-- Effects in order. -/
def ApplyOp.execAll (s : ApplyState) (ops : List ApplyOp) : ApplyState := ops.foldl exec s

namespace SledStateMachine

/-- `SledStateMachine::new` on a new database. -/
def new : SledStateMachine := ⟨OrdMap.empty⟩

/-- `get_applied_count`. -/
def getAppliedCount (sm : SledStateMachine) : Except StorageFailure ℕ :=
  (sm.metaTree.read "sm_count" SledValue.toCount).map (·.getD 0)

/-- `apply`: the responses, the texts handed to the callback, and the new state. -/
def apply (sm : SledStateMachine) (entries : List Entry) :
    Except StorageFailure (List ClientResponse × List String × SledStateMachine) :=
  match sm.getAppliedCount with
  | .error e => .error e
  | .ok count =>
    let s := ApplyOp.execAll ⟨sm.metaTree, []⟩ (applyOps count entries)
    .ok (responsesFrom count entries, s.delivered, ⟨s.tree⟩)

/-- `applied_state`. -/
def appliedState (sm : SledStateMachine) :
    Except StorageFailure (Option LogId × StoredMembership) :=
  match sm.metaTree.read "sm_last_applied" SledValue.toLogId with
  | .error e => .error e
  | .ok lastApplied =>
    match sm.metaTree.read "sm_membership" SledValue.toMembership with
    | .error e => .error e
    | .ok membership => .ok (lastApplied, membership.getD StoredMembership.default)

/-- The value under `sm_snapshot_data`, which is only ever written as raw bytes. -/
def snapshotData (sm : SledStateMachine) : Bytes :=
  match sm.metaTree.get (utf8 "sm_snapshot_data") with
  | some (.bytes data) => data
  | _ => []

/-- `install_snapshot`. -/
def installSnapshot (sm : SledStateMachine) (m : SnapshotMeta) (snapshot : Bytes) :
    SledStateMachine :=
  -- without a last log id the old one stays; the counter is not touched at all
  let tree := match m.lastLogId with
    | some id => sm.metaTree.write "sm_last_applied" (.logId id)
    | none => sm.metaTree
  let tree := tree.write "sm_membership" (.membership m.lastMembership)
  let tree := tree.write "sm_snapshot_data" (.bytes snapshot)
  ⟨tree.write "sm_snapshot_meta" (.snapshotMeta m)⟩

/-- `get_current_snapshot`. -/
def getCurrentSnapshot (sm : SledStateMachine) : Except StorageFailure (Option Snapshot) :=
  match sm.metaTree.read "sm_snapshot_meta" SledValue.toSnapshotMeta with
  | .error e => .error e
  | .ok none => .ok none
  | .ok (some m) => .ok (some ⟨m, sm.snapshotData⟩)

/-- `build_snapshot`. -/
def buildSnapshot (displayLeaderId : LeaderId → String) (sm : SledStateMachine) :
    Except StorageFailure (Snapshot × SledStateMachine) :=
  match sm.appliedState with
  | .error e => .error e
  | .ok (lastApplied, membership) =>
    let m : SnapshotMeta := ⟨lastApplied, membership, snapshotIdOf displayLeaderId lastApplied⟩
    .ok (⟨m, sm.snapshotData⟩, ⟨sm.metaTree.write "sm_snapshot_meta" (.snapshotMeta m)⟩)

end SledStateMachine

/-! ## What applying a batch does -/

/-- The state after one entry, whatever its kind. -/
def MemStateMachine.afterEntry (sm : MemStateMachine) (e : Entry) : MemStateMachine :=
  { sm with
    lastAppliedLog := some e.logId
    lastMembership := e.membershipAfter sm.lastMembership
    appliedCount := sm.appliedCount + e.eventJson.toList.length }

theorem MemStateMachine.apply_cons (sm : MemStateMachine) (e : Entry) (es : List Entry) :
    sm.apply (e :: es) =
      (⟨sm.appliedCount + e.eventJson.toList.length⟩ :: ((sm.afterEntry e).apply es).1,
        e.eventJson.toList ++ ((sm.afterEntry e).apply es).2.1,
        ((sm.afterEntry e).apply es).2.2) := by
  obtain ⟨id, payload⟩ := e
  cases payload <;> rfl

/-- `apply` in closed form. -/
theorem MemStateMachine.apply_eq (sm : MemStateMachine) (es : List Entry) :
    sm.apply es = (responsesFrom sm.appliedCount es, eventTexts es, es.foldl afterEntry sm) := by
  induction es generalizing sm with
  | nil => rfl
  | cons e es ih =>
    rw [apply_cons, ih, eventTexts_cons, responsesFrom, List.foldl_cons]
    rfl

theorem MemStateMachine.foldl_afterEntry_count (sm : MemStateMachine) (es : List Entry) :
    (es.foldl afterEntry sm).appliedCount = sm.appliedCount + (eventTexts es).length := by
  induction es generalizing sm with
  | nil => rfl
  | cons e es ih =>
    rw [List.foldl_cons, ih, eventTexts_cons, List.length_append, ← Nat.add_assoc]
    rfl

theorem MemStateMachine.foldl_afterEntry_snapshotData (sm : MemStateMachine) (es : List Entry) :
    (es.foldl afterEntry sm).snapshotData = sm.snapshotData := by
  induction es generalizing sm with
  | nil => rfl
  | cons e es ih => exact ih (sm.afterEntry e)

theorem MemStateMachine.foldl_afterEntry_lastApplied (sm : MemStateMachine) (es : List Entry) :
    (es.foldl afterEntry sm).lastAppliedLog =
      (es.getLast?.map Entry.logId).or sm.lastAppliedLog := by
  induction es generalizing sm with
  | nil => rfl
  | cons e es ih =>
    rw [List.foldl_cons, ih, List.getLast?_cons]
    cases es.getLast? <;> rfl

/-- Whatever the tree holds, `apply` hands over the texts of the `Normal` entries in order. -/
theorem SledStateMachine.apply_delivered {sm sm' : SledStateMachine} {entries : List Entry}
    {responses : List ClientResponse} {delivered : List String}
    (h : sm.apply entries = .ok (responses, delivered, sm')) :
    delivered = eventTexts entries := by
  have hentry : ∀ (s : ApplyState) (e : Entry),
      (ApplyOp.execAll s (entryOps e)).delivered = s.delivered ++ e.eventJson.toList := by
    intro s e
    obtain ⟨id, payload⟩ := e
    cases payload <;> simp [entryOps, ApplyOp.execAll, ApplyOp.exec, Entry.eventJson]
  have hall : ∀ (es : List Entry) (n : ℕ) (s : ApplyState),
      (ApplyOp.execAll s (applyOps n es)).delivered = s.delivered ++ eventTexts es := by
    intro es
    induction es with
    | nil => simp [applyOps, ApplyOp.execAll, ApplyOp.exec]
    | cons e es ih =>
      intro n s
      rw [applyOps, ApplyOp.execAll, List.foldl_append]
      show (ApplyOp.execAll (ApplyOp.execAll s (entryOps e)) _).delivered = _
      rw [ih, hentry, eventTexts_cons, List.append_assoc]
  rw [SledStateMachine.apply] at h
  split at h
  · cases h
  · cases h
    rw [hall, List.nil_append]

/-! ## The sled machine represents the in-memory one -/

/-- The tree holds the fields of the in-memory state; `count` is the value of the counter, which
the loop of `apply` writes back only at its end. -/
structure Represents (tree : SledTree) (sm : MemStateMachine) (count : ℕ) : Prop where
  lastApplied : tree.get (utf8 "sm_last_applied") = sm.lastAppliedLog.map .logId
  membership : (tree.read "sm_membership" SledValue.toMembership).map
    (·.getD StoredMembership.default) = .ok sm.lastMembership
  counter : (tree.read "sm_count" SledValue.toCount).map (·.getD 0) = .ok count
  snapshotData : SledStateMachine.snapshotData ⟨tree⟩ = sm.snapshotData
  snapshotMeta : tree.get (utf8 "sm_snapshot_meta") = sm.snapshotMeta.map .snapshotMeta

theorem represents_new : Represents OrdMap.empty MemStateMachine.new 0 :=
  ⟨rfl, rfl, rfl, rfl, rfl⟩

@[simp] theorem SledTree.read_write_self {α : Type} (tree : SledTree) (key : String)
    (v : SledValue) (decode : SledValue → Except StorageFailure α) :
    (tree.write key v).read key decode = (decode v).map some := by
  rw [SledTree.read, SledTree.get_write_self]

@[simp] theorem SledTree.read_write_ne {α : Type} (tree : SledTree) {key key' : String}
    (v : SledValue) (h : key ≠ key') (decode : SledValue → Except StorageFailure α) :
    (tree.write key v).read key' decode = tree.read key' decode := by
  rw [SledTree.read, SledTree.get_write_ne _ _ h, SledTree.read]

@[simp] theorem SledStateMachine.snapshotData_write_ne (tree : SledTree) {key : String}
    (v : SledValue) (h : key ≠ "sm_snapshot_data") :
    SledStateMachine.snapshotData ⟨tree.write key v⟩ = SledStateMachine.snapshotData ⟨tree⟩ := by
  rw [SledStateMachine.snapshotData, SledTree.get_write_ne _ _ h, SledStateMachine.snapshotData]

section

variable {tree : SledTree} {sm : MemStateMachine} {count : ℕ}

theorem Represents.writeLastApplied (h : Represents tree sm count) (id : LogId) :
    Represents (tree.write "sm_last_applied" (.logId id)) { sm with lastAppliedLog := some id }
      count :=
  ⟨by simp, by simpa using h.membership, by simpa using h.counter, by simpa using h.snapshotData,
    by simpa using h.snapshotMeta⟩

theorem Represents.writeMembership (h : Represents tree sm count) (m : StoredMembership) :
    Represents (tree.write "sm_membership" (.membership m)) { sm with lastMembership := m } count :=
  ⟨by simpa using h.lastApplied, by simp [SledValue.toMembership, Except.map],
    by simpa using h.counter, by simpa using h.snapshotData, by simpa using h.snapshotMeta⟩

theorem Represents.writeCount (h : Represents tree sm count) (n : ℕ) :
    Represents (tree.write "sm_count" (.count n)) sm n :=
  ⟨by simpa using h.lastApplied, by simpa using h.membership,
    by simp [SledValue.toCount, Except.map], by simpa using h.snapshotData,
    by simpa using h.snapshotMeta⟩

theorem Represents.writeSnapshotData (h : Represents tree sm count) (data : Bytes) :
    Represents (tree.write "sm_snapshot_data" (.bytes data)) { sm with snapshotData := data }
      count :=
  ⟨by simpa using h.lastApplied, by simpa using h.membership, by simpa using h.counter,
    by simp [SledStateMachine.snapshotData], by simpa using h.snapshotMeta⟩

theorem Represents.writeSnapshotMeta (h : Represents tree sm count) (m : SnapshotMeta) :
    Represents (tree.write "sm_snapshot_meta" (.snapshotMeta m)) { sm with snapshotMeta := some m }
      count :=
  ⟨by simpa using h.lastApplied, by simpa using h.membership, by simpa using h.counter,
    by simpa using h.snapshotData, by simp⟩

/-- The effects of one iteration of `apply`: the entry is recorded and delivered, the counter stays
as it was. -/
theorem Represents.execAll_entryOps (h : Represents tree sm count) (e : Entry)
    (delivered : List String) :
    ∃ tree', ApplyOp.execAll ⟨tree, delivered⟩ (entryOps e) =
        ⟨tree', delivered ++ e.eventJson.toList⟩ ∧ Represents tree' (sm.afterEntry e) count := by
  obtain ⟨id, payload⟩ := e
  have hlast := h.writeLastApplied id
  cases payload with
  | blank =>
    exact ⟨_, by simp [ApplyOp.execAll, entryOps, ApplyOp.exec, Entry.eventJson],
      ⟨hlast.lastApplied, hlast.membership, hlast.counter, hlast.snapshotData,
        hlast.snapshotMeta⟩⟩
  | normal req =>
    exact ⟨_, rfl, ⟨hlast.lastApplied, hlast.membership, hlast.counter, hlast.snapshotData,
      hlast.snapshotMeta⟩⟩
  | membership mem =>
    have hmem := hlast.writeMembership ⟨some id, mem⟩
    exact ⟨_, by simp [ApplyOp.execAll, entryOps, ApplyOp.exec, Entry.eventJson],
      ⟨hmem.lastApplied, hmem.membership, hmem.counter, hmem.snapshotData, hmem.snapshotMeta⟩⟩

/-- The effects of a whole batch. -/
theorem Represents.execAll_applyOps (h : Represents tree sm count) (es : List Entry) (n : ℕ)
    (delivered : List String) :
    ∃ tree', ApplyOp.execAll ⟨tree, delivered⟩ (applyOps n es) =
        ⟨tree', delivered ++ eventTexts es⟩ ∧
      Represents tree' (es.foldl MemStateMachine.afterEntry sm) (n + (eventTexts es).length) := by
  induction es generalizing tree sm n delivered with
  | nil => exact ⟨_, by simp [ApplyOp.execAll, applyOps, ApplyOp.exec], h.writeCount n⟩
  | cons e es ih =>
    obtain ⟨tree₁, hexec, hrep⟩ := h.execAll_entryOps e delivered
    obtain ⟨tree₂, hexec', hrep'⟩ := ih hrep (n + e.eventJson.toList.length)
      (delivered ++ e.eventJson.toList)
    refine ⟨tree₂, ?_, ?_⟩
    · rw [applyOps, ApplyOp.execAll, List.foldl_append]
      show ApplyOp.execAll (ApplyOp.execAll _ (entryOps e)) _ = _
      rw [hexec, hexec', eventTexts_cons, List.append_assoc]
    · rw [eventTexts_cons, List.length_append, ← Nat.add_assoc]
      exact hrep'

/-- `apply` on both machines. -/
theorem Represents.apply (h : Represents tree sm sm.appliedCount) (es : List Entry) :
    ∃ tree', SledStateMachine.apply ⟨tree⟩ es = .ok ((sm.apply es).1, (sm.apply es).2.1, ⟨tree'⟩) ∧
      Represents tree' (sm.apply es).2.2 (sm.apply es).2.2.appliedCount := by
  obtain ⟨tree', hexec, hrep⟩ := h.execAll_applyOps es sm.appliedCount []
  have hcount : SledStateMachine.getAppliedCount ⟨tree⟩ = .ok sm.appliedCount := h.counter
  refine ⟨tree', ?_, ?_⟩
  · rw [SledStateMachine.apply, hcount, MemStateMachine.apply_eq]
    simp only [hexec, List.nil_append]
  · rw [MemStateMachine.apply_eq]
    show Represents tree' (es.foldl MemStateMachine.afterEntry sm) _
    rw [MemStateMachine.foldl_afterEntry_count]
    exact hrep

/-- `applied_state` on both machines. -/
theorem Represents.appliedState (h : Represents tree sm count) :
    SledStateMachine.appliedState ⟨tree⟩ = .ok sm.appliedState := by
  have hmem := h.membership
  have hlast : tree.read "sm_last_applied" SledValue.toLogId = .ok sm.lastAppliedLog := by
    rw [SledTree.read, h.lastApplied]
    cases sm.lastAppliedLog <;> rfl
  rw [SledStateMachine.appliedState, hlast]
  cases hread : tree.read "sm_membership" SledValue.toMembership with
  | error e =>
    rw [hread] at hmem
    cases hmem
  | ok m =>
    rw [hread] at hmem
    have hm : m.getD StoredMembership.default = sm.lastMembership := Except.ok.inj hmem
    simp only [hm, MemStateMachine.appliedState]

/-- `build_snapshot` on both machines. -/
theorem Represents.buildSnapshot (h : Represents tree sm count)
    (displayLeaderId : LeaderId → String) :
    ∃ tree', SledStateMachine.buildSnapshot displayLeaderId ⟨tree⟩ =
        .ok ((sm.buildSnapshot displayLeaderId).1, ⟨tree'⟩) ∧
      Represents tree' (sm.buildSnapshot displayLeaderId).2 count := by
  refine ⟨_, ?_, h.writeSnapshotMeta _⟩
  rw [SledStateMachine.buildSnapshot, h.appliedState]
  simp only [MemStateMachine.appliedState, h.snapshotData]
  rfl

/-- `install_snapshot` on both machines. A snapshot of an empty log does not clear the last applied
entry of the sled machine, so the machine must not have applied anything then. -/
theorem Represents.installSnapshot (h : Represents tree sm count) (m : SnapshotMeta) (data : Bytes)
    (hnone : m.lastLogId = none → sm.lastAppliedLog = none) :
    Represents (SledStateMachine.installSnapshot ⟨tree⟩ m data).metaTree (sm.installSnapshot m data)
      count := by
  cases hid : m.lastLogId with
  | some id =>
    have hrep := (((h.writeLastApplied id).writeMembership m.lastMembership).writeSnapshotData
      data).writeSnapshotMeta m
    rw [SledStateMachine.installSnapshot, MemStateMachine.installSnapshot, hid]
    exact hrep
  | none =>
    have hrep := ((h.writeMembership m.lastMembership).writeSnapshotData data).writeSnapshotMeta m
    rw [SledStateMachine.installSnapshot, MemStateMachine.installSnapshot, hid]
    exact ⟨hrep.lastApplied.trans (congrArg (Option.map SledValue.logId) (hnone hid)),
      hrep.membership, hrep.counter, hrep.snapshotData, hrep.snapshotMeta⟩

end

end Picloud
