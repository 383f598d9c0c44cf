import Picloud.Lib.OrdMap
import Picloud.Lib.JsonLines

/-!
# Raft data types

Reference: `picloud-cluster/src/raft.rs` and the `openraft` types it instantiates at `u64` node ids.

Sled trees map byte strings to byte strings. The values are JSON documents, and all that is used of
JSON is that a document reads back as the value it was written for, so a `SledValue` stands for the
document by the value itself; reading it at another type is the deserialisation error.
-/

namespace Picloud

open Lib

/-! ## Log entries -/

/-- `LeaderId<u64>`. -/
structure LeaderId where
  term : UInt64
  nodeId : UInt64
deriving DecidableEq

/-- `LogId<u64>`. -/
structure LogId where
  leaderId : LeaderId
  index : UInt64
deriving DecidableEq

/-- `Vote<u64>`. -/
structure Vote where
  leaderId : LeaderId
  committed : Bool
deriving DecidableEq

/-- `Membership<u64, BasicNode>`: the voter sets, and the addresses of the nodes. -/
structure Membership where
  configs : List (List UInt64)
  nodes : List (UInt64 × String)
deriving DecidableEq

/-- `StoredMembership<u64, BasicNode>`. -/
structure StoredMembership where
  logId : Option LogId
  membership : Membership
deriving DecidableEq

/-- `StoredMembership::default`. -/
def StoredMembership.default : StoredMembership := ⟨none, ⟨[], []⟩⟩

/-- `ClientRequest`. -/
structure ClientRequest where
  eventJson : String
deriving DecidableEq

/-- `ClientResponse`: the sequence number of the applied event. The counter is bounded by the number
of entries of the log, so it is a natural number here. -/
structure ClientResponse where
  index : ℕ
deriving DecidableEq

/-- `EntryPayload`. -/
inductive EntryPayload where
  | blank
  | normal (req : ClientRequest)
  | membership (mem : Membership)
deriving DecidableEq

/-- `Entry<PiCloudTypeConfig>`. -/
structure Entry where
  logId : LogId
  payload : EntryPayload
deriving DecidableEq

/-- The event text of a `Normal` entry. -/
def Entry.eventJson (e : Entry) : Option String :=
  match e.payload with
  | .normal req => some req.eventJson
  | _ => none

/-- `LogState`. -/
structure LogState where
  lastPurgedLogId : Option LogId
  lastLogId : Option LogId
deriving DecidableEq

/-- `SnapshotMeta<u64, BasicNode>`. -/
structure SnapshotMeta where
  lastLogId : Option LogId
  lastMembership : StoredMembership
  snapshotId : String
deriving DecidableEq

/-- `Snapshot<PiCloudTypeConfig>`. -/
structure Snapshot where
  snapshotMeta : SnapshotMeta
  snapshot : Bytes
deriving DecidableEq

/-! ## Failures and trees -/

/-- How a storage call fails: a `StorageError` for data that does not deserialise, or a panic. -/
inductive StorageFailure where
  | invalidData
  | panicked
deriving DecidableEq

/-- A value of a sled tree. -/
inductive SledValue where
  | bytes (data : Bytes)
  | entry (e : Entry)
  | logId (id : LogId)
  | vote (v : Vote)
  | membership (m : StoredMembership)
  | snapshotMeta (m : SnapshotMeta)
  | count (n : ℕ)
deriving DecidableEq

namespace SledValue

/-- `serde_json::from_slice` at `Entry`. -/
def toEntry : SledValue → Except StorageFailure Entry
  | .entry e => .ok e
  | _ => .error .invalidData

/-- `serde_json::from_slice` at `LogId`. -/
def toLogId : SledValue → Except StorageFailure LogId
  | .logId id => .ok id
  | _ => .error .invalidData

/-- `serde_json::from_slice` at `Vote`. -/
def toVote : SledValue → Except StorageFailure Vote
  | .vote v => .ok v
  | _ => .error .invalidData

/-- `serde_json::from_slice` at `StoredMembership`. -/
def toMembership : SledValue → Except StorageFailure StoredMembership
  | .membership m => .ok m
  | _ => .error .invalidData

/-- `serde_json::from_slice` at `SnapshotMeta`. -/
def toSnapshotMeta : SledValue → Except StorageFailure SnapshotMeta
  | .snapshotMeta m => .ok m
  | _ => .error .invalidData

/-- `serde_json::from_slice` at `u64`. -/
def toCount : SledValue → Except StorageFailure ℕ
  | .count n => .ok n
  | _ => .error .invalidData

end SledValue

/-- A sled tree. -/
abbrev SledTree := OrdMap Bytes SledValue

/-- Read a key and deserialise what it holds: `get(..)?.map(from_slice).transpose()`. -/
def SledTree.read {α : Type} (tree : SledTree) (key : String)
    (decode : SledValue → Except StorageFailure α) : Except StorageFailure (Option α) :=
  match tree.get (utf8 key) with
  | none => .ok none
  | some v => (decode v).map some

/-- Write a value under a string key. -/
def SledTree.write (tree : SledTree) (key : String) (v : SledValue) : SledTree :=
  tree.insert (utf8 key) v

theorem utf8_inj {s t : String} : utf8 s = utf8 t ↔ s = t := by
  constructor
  · intro h
    have := congrArg ofUtf8 h
    rwa [ofUtf8_utf8, ofUtf8_utf8, Option.some.injEq] at this
  · exact congrArg utf8

@[simp] theorem SledTree.get_write_self (tree : SledTree) (key : String) (v : SledValue) :
    (tree.write key v).get (utf8 key) = some v :=
  OrdMap.get_insert_self tree _ v

@[simp] theorem SledTree.get_write_ne (tree : SledTree) {key key' : String} (v : SledValue)
    (h : key ≠ key') : (tree.write key v).get (utf8 key') = tree.get (utf8 key') :=
  OrdMap.get_insert_ne tree v (utf8_inj.not.mpr h)

/-! ## Sample entries -/

/-- A blank entry of the first leader. -/
def blankEntry (index : UInt64) : Entry := ⟨⟨⟨1, 1⟩, index⟩, .blank⟩

/-- An entry of the first leader with an event. -/
def joinedEntry (index : UInt64) : Entry :=
  ⟨⟨⟨1, 1⟩, index⟩, .normal ⟨"\x7b\"event_type\":\"NodeJoined\"\x7d"⟩⟩

end Picloud
