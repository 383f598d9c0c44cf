import Picloud.Lib.Assoc
import Picloud.Lib.Base64
import Picloud.Lib.Steps

/-!
# Replication of the files of volumes

Reference: `run_sync_cycle` of `picloud-storage/src/replication.rs`, and `handle_storage_manifest`,
`handle_storage_sync` and `build_volume_manifest` of `picloud-http`.

The clock of the nodes counts nanoseconds, and manifests count seconds. A cycle goes on in single
steps: listing the volumes, every manifest, every file that is read, every request, and every file that
the peer writes. In every step listings may be incomplete and calls may fail.
-/

namespace Picloud

open Lib

/-! ## Files -/

/-- A volume, and a path within it. -/
abbrev FileKey := String × String

/-- A file, with the number of the client write that it is a copy of. -/
structure FileVersion where
  content : List UInt8
  mtime : ℕ
  write : ℕ
deriving DecidableEq

/-- A write of a client. -/
structure ClientWrite where
  node : ℕ
  key : FileKey
  content : List UInt8
  time : ℕ

/-- `as_secs` of a modification time. -/
def asSecs (mtime : ℕ) : ℕ := mtime / 1000000000

/-- `ManifestEntry`. -/
structure ManifestEntry where
  path : String
  size : ℕ
  mtime : ℕ

/-- `SyncFileEntry`. -/
structure SyncFileEntry where
  path : String
  data : String

/-- An entry with the number of the client write that it is a copy of. -/
structure SyncFile where
  entry : SyncFileEntry
  write : ℕ

/-- `build_manifest`, and `build_volume_manifest` at the peer: the files that the walk of the
directory lists. -/
def buildManifest (files : Assoc FileKey FileVersion) (volume : String) (listing : List String) :
    List ManifestEntry :=
  listing.filterMap fun path =>
    (files.get (volume, path)).map fun f => ⟨path, f.content.length, asSecs f.mtime⟩

/-- The file is missing at the peer, or is newer than there; of two entries for a path the last
counts. -/
def needsSync (remote : List ManifestEntry) (entry : ManifestEntry) : Bool :=
  match remote.reverse.find? (·.path = entry.path) with
  | some r => r.mtime < entry.mtime
  | none => true

/-! ## The cycle -/

/-- The work for one peer: its manifest is to be fetched, files are read for it, or it writes the
files. -/
inductive PeerWork where
  | fetch
  | reading (peer : ℕ) (paths : List String) (files : List SyncFile)
  | posting (peer : ℕ) (files : List SyncFile)

/-- The work for one volume: the local manifest, and the peers that are left. -/
structure VolumeWork where
  volume : String
  manifest : List ManifestEntry
  left : List ℕ
  peer : PeerWork

/-- A sync cycle. It is recorded how many client writes there were at its start, and for which peers
something has failed. -/
structure SyncCycle where
  since : ℕ
  peers : List ℕ
  failed : List ℕ
  volumes : List String
  current : Option VolumeWork

/-- A node: its files, and its replicator. -/
structure SyncNode where
  files : Assoc FileKey FileVersion
  cycle : Option SyncCycle

/-- The nodes, the clock, the client writes, and for every cycle that has synced a node with a peer
without failure, the two and the number of client writes at its start. -/
structure Replicas where
  now : ℕ
  nodes : List SyncNode
  writes : List ClientWrite
  completed : List (ℕ × ℕ × ℕ)

/-- What the outside gives to one step: the listing of a directory, the members of the cluster, and
whether a call succeeds. -/
structure SyncOutcome where
  listing : Option (List String)
  members : Option (List ℕ)
  ok : Bool

/-- The effect of one step: the cycle afterwards, a file that a peer writes, and the peers that are
in sync. -/
structure SyncEffect where
  cycle : Option SyncCycle
  delivered : Option (ℕ × FileKey × FileVersion) := none
  completed : List (ℕ × ℕ × ℕ) := []

namespace SyncCycle

/-- Going on with a peer. -/
def goOn (c : SyncCycle) (w : VolumeWork) (peer : PeerWork) : SyncEffect :=
  ⟨some { c with current := some { w with peer := peer } }, none, []⟩

/-- Something fails for a peer. -/
def fail (c : SyncCycle) (j : ℕ) : SyncCycle := { c with failed := j :: c.failed }

end SyncCycle

/-- The start of `run_sync_cycle`. -/
def startCycle (s : Replicas) (i : ℕ) (n : SyncNode) (o : SyncOutcome) : SyncEffect :=
  match o.listing with
  | none => ⟨none, none, []⟩
  | some [] => ⟨none, none, if n.files = [] then
      (List.range s.nodes.length).map fun j => (i, j, s.writes.length) else []⟩
  | some volumes => match o.members with
    | none => ⟨none, none, []⟩
    | some members =>
      let peers := members.filter (· ≠ i)
      let failed := if n.files.keys.all (·.1 ∈ volumes) then [] else peers
      if peers = [] then ⟨none, none, []⟩
      else ⟨some ⟨s.writes.length, peers, failed, volumes, none⟩, none, []⟩

/-- The next step of `run_sync_cycle`, and of the handler that answers it. -/
def SyncCycle.next (s : Replicas) (i : ℕ) (n : SyncNode) (c : SyncCycle)
    (o : SyncOutcome) : SyncEffect :=
  match c.current with
  | none => match c.volumes with
    | [] =>
      ⟨none, none, (c.peers.filter (· ∉ c.failed)).map fun j => (i, j, c.since)⟩
    | volume :: volumes =>
      let listing := o.listing.getD []
      let seen := n.files.keys.all fun k => k.1 ≠ volume || k.2 ∈ listing
      ⟨some { c with
        failed := if seen then c.failed else c.peers ++ c.failed
        volumes := volumes
        current := some ⟨volume, buildManifest n.files volume listing, c.peers, .fetch⟩ }, none, []⟩
  | some w => match w.peer with
    | .fetch => match w.left with
      | [] => ⟨some { c with current := none }, none, []⟩
      | j :: left =>
        let w := { w with left := left }
        match o.listing, s.nodes[j]? with
        | some listing, some peer =>
          let remote := buildManifest peer.files w.volume listing
          c.goOn w (.reading j ((w.manifest.filter (needsSync remote)).map (·.path)) [])
        | _, _ => (c.fail j).goOn w .fetch
    | .reading j [] files =>
      if files = [] then c.goOn w .fetch
      else if o.ok then c.goOn w (.posting j files)
      else (c.fail j).goOn w .fetch
    | .reading j (path :: paths) files =>
      match n.files.get (w.volume, path), o.ok with
      | some f, true =>
        c.goOn w (.reading j paths (files ++ [⟨⟨path, Base64.encode f.content⟩, f.write⟩]))
      | _, _ => (c.fail j).goOn w (.reading j paths files)
    | .posting _ [] => c.goOn w .fetch
    | .posting j (f :: files) =>
      match Base64.decode f.entry.data, o.ok with
      | some data, true => { c.goOn w (.posting j files) with
          delivered := some (j, (w.volume, f.entry.path), ⟨data, s.now, f.write⟩) }
      | _, _ => (c.fail j).goOn w (.posting j files)

/-! ## Runs -/

/-- The actions: time passes, a client writes a file, or a replicator makes a step. -/
inductive FileAct where
  | tick (d : ℕ)
  | write (i : ℕ) (key : FileKey) (content : List UInt8)
  | sync (i : ℕ) (o : SyncOutcome)

/-- Write a file. -/
def SyncNode.put (key : FileKey) (f : FileVersion) (n : SyncNode) : SyncNode :=
  { n with files := n.files.set key f }

/-- The effect of a step of the replicator of a node. -/
def Replicas.apply (s : Replicas) (i : ℕ) (e : SyncEffect) : Replicas :=
  let nodes := s.nodes.modify i fun n => { n with cycle := e.cycle }
  { s with
    nodes := match e.delivered with
      | none => nodes
      | some (j, key, f) => nodes.modify j (SyncNode.put key f)
    completed := s.completed ++ e.completed }

/-- What the replicator of a node does next. -/
def SyncNode.next (s : Replicas) (i : ℕ) (n : SyncNode) (o : SyncOutcome) :
    SyncEffect :=
  match n.cycle with
  | none => startCycle s i n o
  | some c => c.next s i n o

/-- One action. -/
def fileNext (s : Replicas) : FileAct → Option Replicas
  | .tick d => some { s with now := s.now + d }
  | .write i key content =>
    if i < s.nodes.length then some { s with
      nodes := s.nodes.modify i (SyncNode.put key ⟨content, s.now, s.writes.length⟩)
      writes := s.writes ++ [⟨i, key, content, s.now⟩] }
    else none
  | .sync i o => (s.nodes[i]?).map fun n => s.apply i (n.next s i o)

/-- Nodes without files. -/
def replicasStart (count : ℕ) : Replicas := ⟨0, List.replicate count ⟨[], none⟩, [], []⟩

/-! ## What is claimed -/

/-- The version of a file that a node has. -/
def Replicas.held (s : Replicas) (j : ℕ) (key : FileKey) : Option FileVersion :=
  (s.nodes[j]?).bind fun n => n.files.get key

/-- No node's version of a file is replaced by one that a client wrote earlier. -/
def NeverOlder (s s' : Replicas) : Prop :=
  ∀ j key f, s.held j key = some f → ∃ f', s'.held j key = some f' ∧ f.write ≤ f'.write

/-- The last client write of a file. -/
def Latest (writes : List ClientWrite) (key : FileKey) (number : ℕ) : Prop :=
  (∃ w ∈ writes[number]?, w.key = key) ∧ ∀ w ∈ writes.drop (number + 1), w.key ≠ key

/-- If since the last client write every node has synced with every other, all nodes hold the content
of the last client write of each file. -/
def Converged (s : Replicas) : Prop :=
  (∀ i < s.nodes.length, ∀ j < s.nodes.length, i ≠ j → (i, j, s.writes.length) ∈ s.completed) →
    ∀ key number w, Latest s.writes key number → s.writes[number]? = some w →
      ∀ j < s.nodes.length, ∃ f, s.held j key = some f ∧ f.content = w.content

/-- What is claimed of a run. -/
structure NewestKept (start : Replicas) (acts : List FileAct) : Prop where
  neverOlder : StepsMeet fileNext (fun s a => ∀ i o, a = .sync i o →
    ∀ s', fileNext s a = some s' → NeverOlder s s') start acts
  converged : ∀ s, runSteps fileNext start acts = some s → Converged s

/-! ## When it holds -/

/-- The file that the peer writes next, with the number of the client write. -/
def SyncCycle.delivery (c : SyncCycle) : Option (FileKey × ℕ) :=
  match c.current with
  | some ⟨volume, _, _, .posting _ (f :: _)⟩ => some ((volume, f.entry.path), f.write)
  | _ => none

/-- The condition on an action: a client writes a file in a later second than the one in which any
other node got its version, and a peer writes a copy only of the last client write of the file. -/
def Timely (s : Replicas) : FileAct → Prop
  | .tick _ => True
  | .write i key _ => ∀ j < s.nodes.length, j ≠ i → ∀ f ∈ s.held j key,
    asSecs f.mtime < asSecs s.now
  | .sync i o => ∀ n ∈ s.nodes[i]?, ∀ c ∈ n.cycle, ∀ d ∈ c.delivery, o.ok = true →
    Latest s.writes d.1 d.2

end Picloud
