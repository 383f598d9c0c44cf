import Picloud.Raft.StateMachine

/-!
# Catching up from a snapshot

A node that lags behind installs a snapshot of another node and goes on with the entries after it.
The snapshot data is meant to be the applied events as JSON lines, but nothing ever writes it, and
`install_snapshot` does not set the event counter. What the snapshot covers and the node has not
applied itself is lost, so catching up is complete exactly when it covers no such event.
-/

namespace Picloud

open Lib

/-- The calls of a state machine that take part in catching up. -/
structure StateMachineApi (σ : Type) where
  new : σ
  apply : σ → List Entry → Except StorageFailure (List ClientResponse × List String × σ)
  buildSnapshot : σ → Except StorageFailure (Snapshot × σ)
  installSnapshot : σ → SnapshotMeta → Bytes → σ

section

variable (displayLeaderId : LeaderId → String)

/-- `MemStateMachine`. -/
def memApi : StateMachineApi MemStateMachine where
  new := .new
  apply sm entries := .ok (sm.apply entries)
  buildSnapshot sm := .ok (sm.buildSnapshot displayLeaderId)
  installSnapshot := .installSnapshot

/-- `SledStateMachine`. -/
def sledApi : StateMachineApi SledStateMachine where
  new := .new
  apply := SledStateMachine.apply
  buildSnapshot := SledStateMachine.buildSnapshot displayLeaderId
  installSnapshot := .installSnapshot

end

namespace StateMachineApi

variable {σ : Type} (M : StateMachineApi σ)

/-- Apply batches one after another. -/
def applyAll : σ → List (List Entry) →
    Except StorageFailure (List ClientResponse × List String × σ)
  | s, [] => .ok ([], [], s)
  | s, batch :: batches => do
    let (r, d, s) ← M.apply s batch
    let (r', d', s') ← applyAll s batches
    return (r ++ r', d ++ d', s')

end StateMachineApi

/-- What two nodes observe when the second catches up from a snapshot of the first. -/
structure CatchUp where
  /-- The texts handed to the callback of the second node. -/
  delivered : List String
  /-- The texts in the snapshot data. -/
  carried : List String
  /-- The responses of the first node to the entries after the snapshot. -/
  responsesA : List ClientResponse
  /-- The responses of the second node to the same entries. -/
  responsesB : List ClientResponse
deriving DecidableEq

/-- The texts of snapshot data, one a line. -/
def carriedTexts (data : Bytes) : List String := (lines data).filterMap ofUtf8

/-- Node A applies `batchesA` and builds a snapshot; node B applies `batchesB`, installs the
snapshot and applies `laterB`, while A goes on with `laterA`. -/
def catchUp {σ : Type} (M : StateMachineApi σ)
    (batchesA batchesB laterA laterB : List (List Entry)) :
    Except StorageFailure CatchUp := do
  let (_, _, a) ← M.applyAll M.new batchesA
  let (snap, a) ← M.buildSnapshot a
  let (_, d, b) ← M.applyAll M.new batchesB
  let b := M.installSnapshot b snap.snapshotMeta snap.snapshot
  let (responsesA, _, _) ← M.applyAll a laterA
  let (responsesB, d', _) ← M.applyAll b laterB
  return ⟨d ++ d', carriedTexts snap.snapshot, responsesA, responsesB⟩

/-- The numbers a node gives to the `Normal` entries. -/
def eventNumbers (entries : List Entry) (responses : List ClientResponse) : List ℕ :=
  (entries.zip responses).filterMap fun p => p.1.eventJson.map fun _ => p.2.index

/-- Every event of the entries before and after the snapshot has reached node B once, and both nodes
number the later events alike. -/
def CatchUp.Complete (c : CatchUp) (entries later : List Entry) : Prop :=
  (c.delivered ++ c.carried).Perm (eventTexts (entries ++ later)) ∧
    eventNumbers later c.responsesB = eventNumbers later c.responsesA

/-! ## Batches -/

theorem responsesFrom_append (count : ℕ) (es fs : List Entry) :
    responsesFrom count (es ++ fs) =
      responsesFrom count es ++ responsesFrom (count + (eventTexts es).length) fs := by
  induction es generalizing count with
  | nil => rfl
  | cons e es ih =>
    rw [List.cons_append, responsesFrom, ih, responsesFrom, eventTexts_cons, List.length_append,
      Nat.add_assoc, List.cons_append]

/-- How a list of entries is cut into batches makes no difference. -/
theorem applyAll_mem (displayLeaderId : LeaderId → String) (sm : MemStateMachine)
    (batches : List (List Entry)) :
    (memApi displayLeaderId).applyAll sm batches =
      .ok (responsesFrom sm.appliedCount batches.flatten, eventTexts batches.flatten,
        batches.flatten.foldl MemStateMachine.afterEntry sm) := by
  induction batches generalizing sm with
  | nil => rfl
  | cons b bs ih =>
    have happly : (memApi displayLeaderId).apply sm b = .ok (sm.apply b) := rfl
    simp only [StateMachineApi.applyAll, happly, MemStateMachine.apply_eq, bind, Except.bind, ih,
      MemStateMachine.foldl_afterEntry_count, pure, Except.pure, List.flatten_cons,
      responsesFrom_append, eventTexts_append, List.foldl_append]

theorem Represents.applyAll (displayLeaderId : LeaderId → String) {tree : SledTree}
    {sm : MemStateMachine} (h : Represents tree sm sm.appliedCount) (batches : List (List Entry)) :
    ∃ tree', (sledApi displayLeaderId).applyAll ⟨tree⟩ batches =
        .ok (responsesFrom sm.appliedCount batches.flatten, eventTexts batches.flatten, ⟨tree'⟩) ∧
      Represents tree' (batches.flatten.foldl MemStateMachine.afterEntry sm)
        (batches.flatten.foldl MemStateMachine.afterEntry sm).appliedCount := by
  induction batches generalizing tree sm with
  | nil => exact ⟨tree, rfl, h⟩
  | cons b bs ih =>
    obtain ⟨tree₁, happly, hrep⟩ := h.apply b
    rw [MemStateMachine.apply_eq] at happly hrep
    obtain ⟨tree₂, hall, hrep'⟩ := ih hrep
    have happly' : (sledApi displayLeaderId).apply ⟨tree⟩ b =
        .ok (responsesFrom sm.appliedCount b, eventTexts b, ⟨tree₁⟩) := happly
    refine ⟨tree₂, ?_, ?_⟩
    · simp only [StateMachineApi.applyAll, happly', bind, Except.bind, hall,
        MemStateMachine.foldl_afterEntry_count, pure, Except.pure, List.flatten_cons,
        responsesFrom_append, eventTexts_append]
    · rw [List.flatten_cons, List.foldl_append]
      exact hrep'

/-! ## Catching up -/

section

variable (displayLeaderId : LeaderId → String) (entries later : List Entry) (k : ℕ)
  (batchesA batchesB laterA laterB : List (List Entry))

/-- What is observed: B misses the events between its own prefix and the snapshot. -/
def observed : CatchUp where
  delivered := eventTexts (entries.take k) ++ eventTexts later
  carried := []
  responsesA := responsesFrom (eventTexts entries).length later
  responsesB := responsesFrom (eventTexts (entries.take k)).length later

variable {entries later k batchesA batchesB laterA laterB}

theorem catchUp_mem (hA : batchesA.flatten = entries) (hB : batchesB.flatten = entries.take k)
    (hlaterA : laterA.flatten = later) (hlaterB : laterB.flatten = later) :
    catchUp (memApi displayLeaderId) batchesA batchesB laterA laterB =
      .ok (observed entries later k) := by
  have hbuild : ∀ sm, (memApi displayLeaderId).buildSnapshot sm =
      .ok (sm.buildSnapshot displayLeaderId) := fun _ => rfl
  have hnew : (memApi displayLeaderId).new = MemStateMachine.new := rfl
  have hinstall : (memApi displayLeaderId).installSnapshot = MemStateMachine.installSnapshot := rfl
  simp only [catchUp, hnew, applyAll_mem, bind, Except.bind, hbuild, hinstall,
    MemStateMachine.buildSnapshot, MemStateMachine.installSnapshot, hA, hB, hlaterA, hlaterB,
    MemStateMachine.foldl_afterEntry_count, MemStateMachine.foldl_afterEntry_snapshotData, pure,
    Except.pure, observed]
  simp [MemStateMachine.new, carriedTexts, lines, linesFrom]

/-- The sled machines observe the same. -/
theorem catchUp_sled (hA : batchesA.flatten = entries) (hB : batchesB.flatten = entries.take k)
    (hlaterA : laterA.flatten = later) (hlaterB : laterB.flatten = later) :
    catchUp (sledApi displayLeaderId) batchesA batchesB laterA laterB =
      .ok (observed entries later k) := by
  obtain ⟨treeA, happlyA, hrepA⟩ := represents_new.applyAll displayLeaderId batchesA
  obtain ⟨treeB, happlyB, hrepB⟩ := represents_new.applyAll displayLeaderId batchesB
  rw [hA] at happlyA hrepA
  rw [hB] at happlyB hrepB
  obtain ⟨treeA', hbuild, hrepA'⟩ := hrepA.buildSnapshot displayLeaderId
  -- the snapshot of a machine that has applied nothing is installed on one that has not either
  have hnone : (entries.foldl MemStateMachine.afterEntry .new).lastAppliedLog = none →
      ((entries.take k).foldl MemStateMachine.afterEntry .new).lastAppliedLog = none := by
    rw [MemStateMachine.foldl_afterEntry_lastApplied, MemStateMachine.foldl_afterEntry_lastApplied]
    intro h
    have hempty : entries = [] := by
      cases hlast : entries.getLast? with
      | none => exact List.getLast?_eq_none_iff.mp hlast
      | some e =>
        rw [hlast] at h
        cases h
    rw [hempty, List.take_nil]
    rfl
  have hrepB' := hrepB.installSnapshot
    ((entries.foldl MemStateMachine.afterEntry .new).buildSnapshot displayLeaderId).1.snapshotMeta
    ((entries.foldl MemStateMachine.afterEntry .new).buildSnapshot displayLeaderId).1.snapshot hnone
  obtain ⟨treeA₂, hafterA, -⟩ := Represents.applyAll displayLeaderId hrepA' laterA
  obtain ⟨treeB₂, hafterB, -⟩ := Represents.applyAll displayLeaderId hrepB' laterB
  have hbuild' : (sledApi displayLeaderId).buildSnapshot ⟨treeA⟩ = .ok (_, ⟨treeA'⟩) := hbuild
  have hnew : (sledApi displayLeaderId).new = ⟨OrdMap.empty⟩ := rfl
  have hinstall : ∀ sm m data, (sledApi displayLeaderId).installSnapshot sm m data =
      ⟨(SledStateMachine.installSnapshot sm m data).metaTree⟩ := fun _ _ _ => rfl
  simp only [catchUp, hnew, happlyA, hbuild', happlyB, hinstall, hafterA, hafterB, bind,
    Except.bind, pure, Except.pure, hlaterA, hlaterB]
  simp [MemStateMachine.buildSnapshot, MemStateMachine.installSnapshot, observed,
    MemStateMachine.foldl_afterEntry_count, MemStateMachine.foldl_afterEntry_snapshotData,
    MemStateMachine.new, carriedTexts, lines, linesFrom]

/-- Catching up is complete exactly when the snapshot covers no event that the node lacks. -/
theorem observed_complete_iff :
    (observed entries later k).Complete entries later ↔ eventTexts (entries.drop k) = [] := by
  have hsplit : eventTexts entries =
      eventTexts (entries.take k) ++ eventTexts (entries.drop k) := by
    rw [← eventTexts_append, List.take_append_drop]
  constructor
  · -- the number of texts tells already that the events in between are missing
    rintro ⟨hperm, -⟩
    have hlen := hperm.length_eq
    rw [eventTexts_append, hsplit] at hlen
    simp only [observed, List.append_nil, List.length_append] at hlen
    exact List.length_eq_zero_iff.mp (by omega)
  · intro hnone
    rw [hnone, List.append_nil] at hsplit
    refine ⟨?_, ?_⟩
    · rw [eventTexts_append, hsplit]
      simp [observed]
    · simp only [observed, hsplit]

end

/-- **Snapshot completeness.** On either state machine and for every cut of the log into batches, a
node that has applied the first `k` entries, installs a snapshot of all `entries` and goes on with
the later ones misses no event and numbers the later events as the other node does exactly when no
`Normal` entry lies between the first `k` entries and the end of the snapshot. -/
theorem catchUp_complete_iff (displayLeaderId : LeaderId → String) (entries later : List Entry)
    (k : ℕ) (batchesA batchesB laterA laterB : List (List Entry))
    (hA : batchesA.flatten = entries) (hB : batchesB.flatten = entries.take k)
    (hlaterA : laterA.flatten = later) (hlaterB : laterB.flatten = later) :
    (∃ c, catchUp (memApi displayLeaderId) batchesA batchesB laterA laterB = .ok c ∧
      (c.Complete entries later ↔ ∀ e ∈ entries.drop k, e.eventJson = none)) ∧
    ∃ c, catchUp (sledApi displayLeaderId) batchesA batchesB laterA laterB = .ok c ∧
      (c.Complete entries later ↔ ∀ e ∈ entries.drop k, e.eventJson = none) := by
  have hiff : (observed entries later k).Complete entries later ↔
      ∀ e ∈ entries.drop k, e.eventJson = none :=
    observed_complete_iff.trans List.filterMap_eq_nil_iff
  exact ⟨⟨_, catchUp_mem displayLeaderId hA hB hlaterA hlaterB, hiff⟩,
    _, catchUp_sled displayLeaderId hA hB hlaterA hlaterB, hiff⟩

/-- The text of a leader id: term and node. -/
def leaderText (id : LeaderId) : String :=
  "T" ++ toString id.term.toNat ++ "-N" ++ toString id.nodeId.toNat

/-- The snapshot covers only a blank entry that the node lacks. -/
theorem catchUp_complete_after_blank :
    ∃ c, catchUp (sledApi leaderText) [[joinedEntry 1], [blankEntry 2]] [[joinedEntry 1]]
        [[joinedEntry 3]] [[joinedEntry 3]] = .ok c ∧
      c.Complete [joinedEntry 1, blankEntry 2] [joinedEntry 3] := by
  obtain ⟨c, hc, hiff⟩ := (catchUp_complete_iff leaderText [joinedEntry 1, blankEntry 2]
    [joinedEntry 3] 1 [[joinedEntry 1], [blankEntry 2]] [[joinedEntry 1]] [[joinedEntry 3]]
    [[joinedEntry 3]] rfl rfl rfl rfl).2
  exact ⟨c, hc, hiff.mpr (by decide)⟩

/-- A new node that joins after one event has been applied and snapshotted never gets the event, and
numbers the next one 1 where the other node numbers it 2. -/
theorem catchUp_loses_event :
    (∃ c, catchUp (memApi leaderText) [[joinedEntry 1]] [] [[joinedEntry 2]] [[joinedEntry 2]] =
        .ok c ∧ c.delivered = eventTexts [joinedEntry 2] ∧ c.carried = [] ∧
      eventNumbers [joinedEntry 2] c.responsesA = [2] ∧
      eventNumbers [joinedEntry 2] c.responsesB = [1] ∧
      ¬ c.Complete [joinedEntry 1] [joinedEntry 2]) ∧
    ∃ c, catchUp (sledApi leaderText) [[joinedEntry 1]] [] [[joinedEntry 2]] [[joinedEntry 2]] =
        .ok c ∧ c.delivered = eventTexts [joinedEntry 2] ∧ c.carried = [] ∧
      eventNumbers [joinedEntry 2] c.responsesA = [2] ∧
      eventNumbers [joinedEntry 2] c.responsesB = [1] ∧
      ¬ c.Complete [joinedEntry 1] [joinedEntry 2] := by
  have hlost : ¬ (observed [joinedEntry 1] [joinedEntry 2] 0).Complete [joinedEntry 1]
      [joinedEntry 2] := by
    rw [observed_complete_iff]
    decide
  exact ⟨⟨_, catchUp_mem leaderText rfl rfl rfl rfl, rfl, rfl, rfl, rfl, hlost⟩,
    _, catchUp_sled leaderText rfl rfl rfl rfl, rfl, rfl, rfl, rfl, hlost⟩

end Picloud
