import Picloud.Raft.Types

/-!
# The Raft log stores

Reference: `MemLogStore` and `SledLogStore` in `picloud-cluster/src/raft.rs`.

`MemLogStore` keeps the log in a B-tree map from index to entry. `SledLogStore` keeps it in a sled
tree under the big-endian bytes of the index, and vote, commit point and purge point in a second
tree under string keys. Its calls are lists of single tree writes (`TreeOp`), so that a crash can
stop them anywhere; sled itself does not fail.
-/

namespace Picloud

open Lib

/-- A range of log indices, by its two ends. -/
structure IndexRange where
  lo : OrdMap.Bound UInt64
  hi : OrdMap.Bound UInt64
deriving DecidableEq

/-- `RangeBounds::contains`. -/
def IndexRange.contains (range : IndexRange) (i : UInt64) : Bool :=
  OrdMap.inRange range.lo range.hi i

/-! ## In memory -/

/-- `MemLogStoreInner`. -/
structure MemLogStore where
  lastPurgedLogId : Option LogId
  log : OrdMap UInt64 Entry
  vote : Option Vote
  committed : Option LogId

namespace MemLogStore

/-- `MemLogStore::new`. -/
def new : MemLogStore := ⟨none, OrdMap.empty, none, none⟩

/-- `try_get_log_entries`: `BTreeMap::range` panics on some ranges. -/
def tryGetLogEntries (store : MemLogStore) (range : IndexRange) :
    Except StorageFailure (List Entry) :=
  match store.log.range range.lo range.hi with
  | some es => .ok (es.map Prod.snd)
  | none => .error .panicked

/-- `get_log_state`. -/
def getLogState (store : MemLogStore) : LogState where
  lastPurgedLogId := store.lastPurgedLogId
  lastLogId := (store.log.values.getLast?.map Entry.logId).or store.lastPurgedLogId

/-- `save_vote`. -/
def saveVote (store : MemLogStore) (vote : Vote) : MemLogStore := { store with vote := some vote }

/-- `save_committed`. -/
def saveCommitted (store : MemLogStore) (committed : Option LogId) : MemLogStore :=
  { store with committed }

/-- `append`. -/
def append (store : MemLogStore) (entries : List Entry) : MemLogStore :=
  { store with log := entries.foldl (fun log e => log.insert e.logId.index e) store.log }

/-- `truncate`: collect the keys from the index on, then remove them. -/
def truncate (store : MemLogStore) (logId : LogId) : MemLogStore :=
  { store with
    log := store.log.removeAll (store.log.keys.filter fun i => logId.index ≤ i) }

/-- `purge`: collect the keys up to the index, remove them, and record the purge point. -/
def purge (store : MemLogStore) (logId : LogId) : MemLogStore :=
  { store with
    log := store.log.removeAll (store.log.keys.filter fun i => i ≤ logId.index)
    lastPurgedLogId := some logId }

end MemLogStore

/-! ## On disk -/

/-- `SledLogStore`: the trees `raft_log` and `raft_meta`. -/
structure SledLogStore where
  logTree : SledTree
  metaTree : SledTree

/-- One write to a tree of the log store. -/
inductive TreeOp where
  | insertLog (key : Bytes) (v : SledValue)
  | removeLog (key : Bytes)
  | insertMeta (key : String) (v : SledValue)
  | removeMeta (key : String)
deriving DecidableEq

namespace SledLogStore

/-- `SledLogStore::new` on a new database. -/
def new : SledLogStore := ⟨OrdMap.empty, OrdMap.empty⟩

/-- `index_key`. -/
def indexKey (index : UInt64) : Bytes := toBeBytes index

/-- The effect of one write. -/
def exec (store : SledLogStore) : TreeOp → SledLogStore
  | .insertLog key v => { store with logTree := store.logTree.insert key v }
  | .removeLog key => { store with logTree := store.logTree.remove key }
  | .insertMeta key v => { store with metaTree := store.metaTree.write key v }
  | .removeMeta key => { store with metaTree := store.metaTree.remove (utf8 key) }

/-- Execute writes in order. -/
def execAll (store : SledLogStore) (ops : List TreeOp) : SledLogStore := ops.foldl exec store

/-- The loop of `try_get_log_entries` over the entries of the tree. -/
def collect (range : IndexRange) : List (Bytes × SledValue) → Except StorageFailure (List Entry)
  | [] => .ok []
  | (key, val) :: items =>
    -- a key of another length is skipped, as is one outside the range
    if key.length = 8 ∧ range.contains (fromBeBytes key) then
      match val.toEntry with
      | .error e => .error e
      | .ok entry => (collect range items).map (entry :: ·)
    else collect range items

/-- `try_get_log_entries`. -/
def tryGetLogEntries (store : SledLogStore) (range : IndexRange) :
    Except StorageFailure (List Entry) :=
  collect range store.logTree.entries

/-- `get_log_state`: an entry that does not deserialise panics. -/
def getLogState (store : SledLogStore) : Except StorageFailure LogState :=
  match store.metaTree.read "last_purged_log_id" SledValue.toLogId with
  | .error e => .error e
  | .ok lastPurged =>
    match store.logTree.last with
    | none => .ok ⟨lastPurged, lastPurged⟩
    | some (_, v) =>
      match v.toEntry with
      | .error _ => .error .panicked
      | .ok entry => .ok ⟨lastPurged, some entry.logId⟩

/-- The write of `save_vote`. -/
def saveVoteOps (vote : Vote) : List TreeOp := [.insertMeta "vote" (.vote vote)]

/-- `read_vote`. -/
def readVote (store : SledLogStore) : Except StorageFailure (Option Vote) :=
  store.metaTree.read "vote" SledValue.toVote

/-- The write of `save_committed`. -/
def saveCommittedOps : Option LogId → List TreeOp
  | some c => [.insertMeta "committed" (.logId c)]
  | none => [.removeMeta "committed"]

/-- `read_committed`. -/
def readCommitted (store : SledLogStore) : Except StorageFailure (Option LogId) :=
  store.metaTree.read "committed" SledValue.toLogId

/-- The writes of `append`. -/
def appendOps (entries : List Entry) : List TreeOp :=
  entries.map fun e => .insertLog (indexKey e.logId.index) (.entry e)

/-- The writes of `truncate`: the keys from the index on, in increasing order. -/
def truncateOps (store : SledLogStore) (logId : LogId) : List TreeOp :=
  (store.logTree.keys.filter fun k => indexKey logId.index ≤ k).map .removeLog

/-- The writes of `purge`: the keys up to the index, in increasing order, then the purge point. -/
def purgeOps (store : SledLogStore) (logId : LogId) : List TreeOp :=
  (store.logTree.keys.filter fun k => k ≤ indexKey logId.index).map .removeLog ++
    [.insertMeta "last_purged_log_id" (.logId logId)]

end SledLogStore

/-! ## Calls -/

/-- The calls `openraft` makes on a log store. -/
inductive LogCall where
  | append (entries : List Entry)
  | truncate (logId : LogId)
  | purge (logId : LogId)
  | saveVote (vote : Vote)
  | saveCommitted (committed : Option LogId)
  | readVote
  | readCommitted
  | getLogState
  | tryGetLogEntries (range : IndexRange)
deriving DecidableEq

/-- What a call returns when it succeeds. -/
inductive LogReply where
  | unit
  | vote (vote : Option Vote)
  | committed (committed : Option LogId)
  | logState (state : LogState)
  | entries (entries : List Entry)
deriving DecidableEq

/-- A call on the in-memory store. -/
def MemLogStore.call (store : MemLogStore) : LogCall → Except StorageFailure LogReply × MemLogStore
  | .append entries => (.ok .unit, store.append entries)
  | .truncate logId => (.ok .unit, store.truncate logId)
  | .purge logId => (.ok .unit, store.purge logId)
  | .saveVote vote => (.ok .unit, store.saveVote vote)
  | .saveCommitted committed => (.ok .unit, store.saveCommitted committed)
  | .readVote => (.ok (.vote store.vote), store)
  | .readCommitted => (.ok (.committed store.committed), store)
  | .getLogState => (.ok (.logState store.getLogState), store)
  | .tryGetLogEntries range => ((store.tryGetLogEntries range).map .entries, store)

/-- A call on the sled store. -/
def SledLogStore.call (store : SledLogStore) :
    LogCall → Except StorageFailure LogReply × SledLogStore
  | .append entries => (.ok .unit, store.execAll (appendOps entries))
  | .truncate logId => (.ok .unit, store.execAll (store.truncateOps logId))
  | .purge logId => (.ok .unit, store.execAll (store.purgeOps logId))
  | .saveVote vote => (.ok .unit, store.execAll (saveVoteOps vote))
  | .saveCommitted committed => (.ok .unit, store.execAll (saveCommittedOps committed))
  | .readVote => (store.readVote.map .vote, store)
  | .readCommitted => (store.readCommitted.map .committed, store)
  | .getLogState => (store.getLogState.map .logState, store)
  | .tryGetLogEntries range => ((store.tryGetLogEntries range).map .entries, store)

end Picloud
