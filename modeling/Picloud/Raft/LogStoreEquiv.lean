import Picloud.Raft.LogStore

/-!
# The two log stores answer alike

The sled log tree is the in-memory map with its keys in big-endian bytes and its values as
documents. Big-endian encoding is an order embedding, so every call keeps this relation and reads
the same answer through it, as long as the in-memory map can be asked for the range at all.
-/

namespace Picloud

open Lib

/-- The sled store holds what the in-memory store holds. -/
structure Simulates (mem : MemLogStore) (sled : SledLogStore) : Prop where
  log : sled.logTree = mem.log.mapEntries beKey .entry
  purged : sled.metaTree.get (utf8 "last_purged_log_id") = mem.lastPurgedLogId.map .logId
  vote : sled.metaTree.get (utf8 "vote") = mem.vote.map .vote
  committed : sled.metaTree.get (utf8 "committed") = mem.committed.map .logId

/-- The answers to calls made one after another. -/
def replies {σ : Type} (call : σ → LogCall → Except StorageFailure LogReply × σ) :
    σ → List LogCall → List (Except StorageFailure LogReply)
  | _, [] => []
  | store, c :: cs => (call store c).1 :: replies call (call store c).2 cs

/-- The call asks for a range that the in-memory map accepts. -/
def LogCall.RangeOk : LogCall → Prop
  | .tryGetLogEntries range =>
    OrdMap.Ordered range.lo range.hi ∧ ¬ OrdMap.BothExclude range.lo range.hi
  | _ => True

instance (c : LogCall) : Decidable c.RangeOk :=
  match c with
  | .tryGetLogEntries range => inferInstanceAs
      (Decidable (OrdMap.Ordered range.lo range.hi ∧ ¬ OrdMap.BothExclude range.lo range.hi))
  | .append _ | .truncate _ | .purge _ | .saveVote _ | .saveCommitted _ | .readVote
  | .readCommitted | .getLogState => isTrue trivial

theorem simulates_new : Simulates MemLogStore.new SledLogStore.new :=
  ⟨rfl, rfl, rfl, rfl⟩

section

variable {mem : MemLogStore} {sled : SledLogStore}

/-! ## The calls that write -/

theorem SledLogStore.execAll_removeLog (store : SledLogStore) (ks : List Bytes) :
    store.execAll (ks.map .removeLog) = { store with logTree := store.logTree.removeAll ks } := by
  induction ks generalizing store with
  | nil => rfl
  | cons k ks ih =>
    show (store.exec (.removeLog k)).execAll (ks.map .removeLog) = _
    rw [ih]
    rfl

theorem SledLogStore.execAll_appendOps (store : SledLogStore) (entries : List Entry) :
    store.execAll (SledLogStore.appendOps entries) = { store with
      logTree := entries.foldl (fun t e => t.insert (beKey e.logId.index) (.entry e))
        store.logTree } := by
  induction entries generalizing store with
  | nil => rfl
  | cons e es ih =>
    show (store.exec _).execAll (SledLogStore.appendOps es) = _
    rw [ih]
    rfl

theorem mapEntries_foldl_insert (entries : List Entry) (log : OrdMap UInt64 Entry) :
    (entries.foldl (fun log e => log.insert e.logId.index e) log).mapEntries beKey SledValue.entry =
      entries.foldl (fun t e => t.insert (beKey e.logId.index) (.entry e))
        (log.mapEntries beKey .entry) := by
  induction entries generalizing log with
  | nil => rfl
  | cons e es ih => rw [List.foldl_cons, List.foldl_cons, ih, OrdMap.mapEntries_insert]

/-- Removing keys on both sides. -/
theorem Simulates.removeAll (h : Simulates mem sled) (ks : List UInt64) :
    Simulates { mem with log := mem.log.removeAll ks }
      (sled.execAll ((ks.map beKey).map .removeLog)) := by
  rw [SledLogStore.execAll_removeLog, h.log, ← OrdMap.mapEntries_removeAll]
  exact ⟨rfl, h.purged, h.vote, h.committed⟩

theorem Simulates.truncateOps (h : Simulates mem sled) (logId : LogId) :
    sled.truncateOps logId =
      ((mem.log.keys.filter fun i => logId.index ≤ i).map beKey).map .removeLog := by
  rw [SledLogStore.truncateOps, h.log, OrdMap.filter_keys_mapEntries]
  -- big-endian keys compare as the indices do
  intro i
  rw [decide_eq_decide]
  exact beKey.le_iff_le

theorem Simulates.purgeOps (h : Simulates mem sled) (logId : LogId) :
    sled.purgeOps logId =
      ((mem.log.keys.filter fun i => i ≤ logId.index).map beKey).map .removeLog ++
        [.insertMeta "last_purged_log_id" (.logId logId)] := by
  rw [SledLogStore.purgeOps, h.log, OrdMap.filter_keys_mapEntries]
  intro i
  rw [decide_eq_decide]
  exact beKey.le_iff_le

theorem Simulates.recordPurge (h : Simulates mem sled) (logId : LogId) :
    Simulates { mem with lastPurgedLogId := some logId }
      (sled.exec (.insertMeta "last_purged_log_id" (.logId logId))) := by
  refine ⟨h.log, SledTree.get_write_self _ _ _, ?_, ?_⟩
  · show (sled.metaTree.write _ _).get _ = _
    rw [SledTree.get_write_ne _ _ (by decide)]
    exact h.vote
  · show (sled.metaTree.write _ _).get _ = _
    rw [SledTree.get_write_ne _ _ (by decide)]
    exact h.committed

theorem Simulates.append (h : Simulates mem sled) (entries : List Entry) :
    Simulates (mem.append entries) (sled.execAll (SledLogStore.appendOps entries)) := by
  rw [SledLogStore.execAll_appendOps]
  refine ⟨?_, h.purged, h.vote, h.committed⟩
  rw [MemLogStore.append, mapEntries_foldl_insert, ← h.log]

theorem Simulates.truncate (h : Simulates mem sled) (logId : LogId) :
    Simulates (mem.truncate logId) (sled.execAll (sled.truncateOps logId)) := by
  rw [h.truncateOps]
  exact h.removeAll _

theorem Simulates.purge (h : Simulates mem sled) (logId : LogId) :
    Simulates (mem.purge logId) (sled.execAll (sled.purgeOps logId)) := by
  rw [h.purgeOps, SledLogStore.execAll, List.foldl_append]
  exact (h.removeAll _).recordPurge logId

theorem Simulates.saveVote (h : Simulates mem sled) (vote : Vote) :
    Simulates (mem.saveVote vote) (sled.execAll (SledLogStore.saveVoteOps vote)) := by
  refine ⟨h.log, ?_, SledTree.get_write_self _ _ _, ?_⟩
  · show (sled.metaTree.write _ _).get _ = _
    rw [SledTree.get_write_ne _ _ (by decide)]
    exact h.purged
  · show (sled.metaTree.write _ _).get _ = _
    rw [SledTree.get_write_ne _ _ (by decide)]
    exact h.committed

theorem Simulates.saveCommitted (h : Simulates mem sled) (committed : Option LogId) :
    Simulates (mem.saveCommitted committed)
      (sled.execAll (SledLogStore.saveCommittedOps committed)) := by
  cases committed with
  | some c =>
    refine ⟨h.log, ?_, ?_, SledTree.get_write_self _ _ _⟩
    · show (sled.metaTree.write _ _).get _ = _
      rw [SledTree.get_write_ne _ _ (by decide)]
      exact h.purged
    · show (sled.metaTree.write _ _).get _ = _
      rw [SledTree.get_write_ne _ _ (by decide)]
      exact h.vote
  | none =>
    -- `None` is stored by removing the key
    refine ⟨h.log, ?_, ?_, OrdMap.get_remove_self _ _⟩
    · show (sled.metaTree.remove _).get _ = _
      rw [OrdMap.get_remove_ne _ (utf8_inj.not.mpr (by decide))]
      exact h.purged
    · show (sled.metaTree.remove _).get _ = _
      rw [OrdMap.get_remove_ne _ (utf8_inj.not.mpr (by decide))]
      exact h.vote

/-! ## The calls that read -/

theorem Simulates.getLogState (h : Simulates mem sled) :
    sled.getLogState = .ok mem.getLogState := by
  have hpurged : sled.metaTree.read "last_purged_log_id" SledValue.toLogId =
      .ok mem.lastPurgedLogId := by
    rw [SledTree.read, h.purged]
    cases mem.lastPurgedLogId <;> rfl
  have hvalues : mem.log.values.getLast? = mem.log.last.map Prod.snd := by
    rw [OrdMap.values, OrdMap.last, List.getLast?_map]
  rw [SledLogStore.getLogState, hpurged, h.log, OrdMap.last_mapEntries, MemLogStore.getLogState,
    hvalues]
  cases mem.log.last <;> rfl

theorem collect_mapEntries (range : IndexRange) (es : List (UInt64 × Entry)) :
    SledLogStore.collect range (es.map fun e => (beKey e.1, SledValue.entry e.2)) =
      .ok ((es.filter fun e => range.contains e.1).map Prod.snd) := by
  induction es with
  | nil => rfl
  | cons e es ih =>
    rw [List.map_cons, SledLogStore.collect, ih]
    by_cases hin : range.contains e.1 = true
    · rw [if_pos (by simp [hin]), List.filter_cons, if_pos hin]
      rfl
    · rw [if_neg (by simp [hin]), List.filter_cons, if_neg hin]

theorem Simulates.tryGetLogEntries (h : Simulates mem sled) {range : IndexRange}
    (hok : OrdMap.Ordered range.lo range.hi ∧ ¬ OrdMap.BothExclude range.lo range.hi) :
    mem.tryGetLogEntries range = sled.tryGetLogEntries range := by
  rw [SledLogStore.tryGetLogEntries, h.log, OrdMap.mapEntries, collect_mapEntries,
    MemLogStore.tryGetLogEntries, OrdMap.range, if_pos hok]
  rfl

theorem Simulates.readVote (h : Simulates mem sled) : sled.readVote = .ok mem.vote := by
  rw [SledLogStore.readVote, SledTree.read, h.vote]
  cases mem.vote <;> rfl

theorem Simulates.readCommitted (h : Simulates mem sled) :
    sled.readCommitted = .ok mem.committed := by
  rw [SledLogStore.readCommitted, SledTree.read, h.committed]
  cases mem.committed <;> rfl

/-! ## Every call -/

/-- The step lemma: one call gets the same answer from both stores and keeps them related. -/
theorem Simulates.call (h : Simulates mem sled) {c : LogCall} (hok : c.RangeOk) :
    (mem.call c).1 = (sled.call c).1 ∧ Simulates (mem.call c).2 (sled.call c).2 := by
  cases c with
  | append entries => exact ⟨rfl, h.append entries⟩
  | truncate logId => exact ⟨rfl, h.truncate logId⟩
  | purge logId => exact ⟨rfl, h.purge logId⟩
  | saveVote vote => exact ⟨rfl, h.saveVote vote⟩
  | saveCommitted committed => exact ⟨rfl, h.saveCommitted committed⟩
  | readVote =>
    refine ⟨?_, h⟩
    show _ = sled.readVote.map LogReply.vote
    rw [h.readVote]
    rfl
  | readCommitted =>
    refine ⟨?_, h⟩
    show _ = sled.readCommitted.map LogReply.committed
    rw [h.readCommitted]
    rfl
  | getLogState =>
    refine ⟨?_, h⟩
    show _ = sled.getLogState.map LogReply.logState
    rw [h.getLogState]
    rfl
  | tryGetLogEntries range =>
    refine ⟨?_, h⟩
    show (mem.tryGetLogEntries range).map _ = (sled.tryGetLogEntries range).map _
    rw [h.tryGetLogEntries hok]

theorem Simulates.replies (h : Simulates mem sled) {calls : List LogCall}
    (hok : ∀ c ∈ calls, c.RangeOk) :
    replies MemLogStore.call mem calls = replies SledLogStore.call sled calls := by
  induction calls generalizing mem sled with
  | nil => rfl
  | cons c cs ih =>
    obtain ⟨heq, hsim⟩ := h.call (hok c List.mem_cons_self)
    rw [Picloud.replies, Picloud.replies, heq,
      ih hsim fun c' hc' => hok c' (List.mem_cons_of_mem c hc')]

end

/-- **The log stores are observationally equal.** Any calls made on empty stores get the same
answers from both, provided that no range is asked for whose start is after its end or whose two
ends exclude the same index; and the byte order of the keys is the order of the indices. -/
theorem logStores_answer_alike (calls : List LogCall) (hok : ∀ c ∈ calls, c.RangeOk) :
    replies MemLogStore.call MemLogStore.new calls =
      replies SledLogStore.call SledLogStore.new calls ∧
    ∀ i j : UInt64, SledLogStore.indexKey i < SledLogStore.indexKey j ↔ i < j :=
  ⟨simulates_new.replies hok, toBeBytes_lt_iff⟩

/-- Append, read a range, purge, and read the log state. -/
theorem logStores_answer_alike_purge :
    replies MemLogStore.call MemLogStore.new
        [.append [blankEntry 1, blankEntry 2], .tryGetLogEntries ⟨.included 1, .excluded 2⟩,
          .purge ⟨⟨1, 1⟩, 1⟩, .getLogState] =
      replies SledLogStore.call SledLogStore.new
        [.append [blankEntry 1, blankEntry 2], .tryGetLogEntries ⟨.included 1, .excluded 2⟩,
          .purge ⟨⟨1, 1⟩, 1⟩, .getLogState] :=
  (logStores_answer_alike _ (by decide)).1

/-- On a range whose start is not after its end, but whose two ends exclude the same index, the
in-memory store panics and the sled store answers with no entries. -/
theorem logStores_differ_on_excluded_ends :
    OrdMap.Ordered (.excluded (1 : UInt64)) (.excluded 1) ∧
    replies MemLogStore.call MemLogStore.new
        [.append [blankEntry 1], .tryGetLogEntries ⟨.excluded 1, .excluded 1⟩] =
      [.ok .unit, .error .panicked] ∧
    replies SledLogStore.call SledLogStore.new
        [.append [blankEntry 1], .tryGetLogEntries ⟨.excluded 1, .excluded 1⟩] =
      [.ok .unit, .ok (.entries [])] := by
  decide +kernel

end Picloud
