import Mathlib.Data.List.Nodup
import Picloud.Domain.Event

/-!
# Peer list

Reference: `picloud-cluster/src/peers.rs`, `handle_event` of `picloud-cluster/src/discovery.rs` and
`node_id_from_uuid` of `picloud-cluster/src/raft.rs`.

The registry of the peers that mDNS has discovered. The source keeps a `HashMap` by node id, so the
order in which peers are listed is not determined: a user of the list takes it in any order.
-/

namespace Picloud

/-- A Raft node id. -/
abbrev RaftId := BitVec 64

/-- `node_id_from_uuid`: the lower 64 bits. -/
def nodeIdFromUuid (uuid : Uuid) : RaftId := uuid.setWidth 64

/-- `PeerInfo`. The instants are the milliseconds of the clock of the node. -/
structure PeerInfo where
  nodeId : Uuid
  nodeName : String
  address : String
  lastSeen : ℕ
deriving DecidableEq

/-- The Raft node id of a peer. -/
def PeerInfo.raftId (peer : PeerInfo) : RaftId := nodeIdFromUuid peer.nodeId

/-- `PeerList`: at most one entry for a node id. -/
structure PeerList where
  peers : List PeerInfo
  nodup : (peers.map PeerInfo.nodeId).Nodup

namespace PeerList

/-- `PeerList::new`. -/
def new : PeerList := ⟨[], List.nodup_nil⟩

/-- `contains`. -/
def contains (l : PeerList) (nodeId : Uuid) : Bool := l.peers.any (·.nodeId = nodeId)

theorem contains_iff {l : PeerList} {nodeId : Uuid} :
    l.contains nodeId = true ↔ nodeId ∈ l.peers.map PeerInfo.nodeId := by
  simp [contains]

/-- A subset of the entries. -/
def filter (l : PeerList) (p : PeerInfo → Bool) : PeerList :=
  ⟨l.peers.filter p, l.nodup.sublist (List.filter_sublist.map _)⟩

/-- Entries changed in place. -/
def mapPeers (l : PeerList) (f : PeerInfo → PeerInfo) (hf : ∀ p, (f p).nodeId = p.nodeId) :
    PeerList :=
  ⟨l.peers.map f, by simpa [Function.comp_def, hf] using l.nodup⟩

/-- `add`: a new peer is seen now, an entry that exists is replaced. -/
def add (l : PeerList) (now : ℕ) (peer : PeerInfo) : PeerList :=
  if h : l.contains peer.nodeId then
    l.mapPeers (fun p => if p.nodeId = peer.nodeId then peer else p) fun p => by
      split_ifs with hp
      · exact hp.symm
      · rfl
  else
    ⟨l.peers ++ [{ peer with lastSeen := now }], by
      rw [List.map_append, List.nodup_append]
      refine ⟨l.nodup, by simp, fun a ha b hb => ?_⟩
      obtain rfl : b = peer.nodeId := by simpa using hb
      rintro rfl
      exact h (contains_iff.mpr ha)⟩

/-- `touch`. -/
def touch (l : PeerList) (now : ℕ) (nodeId : Uuid) : PeerList :=
  l.mapPeers (fun p => if p.nodeId = nodeId then { p with lastSeen := now } else p) fun p => by
    split_ifs <;> rfl

/-- `now.duration_since(p.last_seen) > max_age`. -/
def isStale (now maxAge : ℕ) (peer : PeerInfo) : Bool := maxAge < now - peer.lastSeen

/-- What `sweep_stale` returns. -/
def stale (l : PeerList) (now maxAge : ℕ) : List PeerInfo := l.peers.filter (isStale now maxAge)

/-- What `sweep_stale` leaves. -/
def sweepStale (l : PeerList) (now maxAge : ℕ) : PeerList :=
  l.filter fun peer => !isStale now maxAge peer

/-- `remove_by_fullname`: the instance name ends before the first dot. -/
def removeByFullname (l : PeerList) (fullname : String) : PeerList :=
  l.filter fun peer => peer.nodeName.toList ≠ fullname.toList.takeWhile (· ≠ '.')

/-- `handle_event` on `ServiceResolved`: a node does not add itself, and the time of a peer that
resolves again is refreshed. -/
def resolved (l : PeerList) (now : ℕ) (localNodeId : Uuid) (peer : PeerInfo) : PeerList :=
  if peer.nodeId = localNodeId then l else (l.add now peer).touch now peer.nodeId

end PeerList

end Picloud
