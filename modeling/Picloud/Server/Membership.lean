import Mathlib.Data.Finset.Basic
import Mathlib.Logic.Function.Basic
import Picloud.Cluster.Peers
import Picloud.Lib.Steps

/-!
# Raft membership

Reference: the membership watcher and the stale-peer sweep of `src/main.rs`.

Every node runs two tasks over one set of known members, which starts with the node itself. The
watcher adds discovered peers as learners and promotes them, the sweep removes stale peers; both hand
the known set to `change_membership`, which replaces the voters. A task is where its last await left
it, so that tasks and nodes interleave between any two accesses to the shared set. Raft itself is
what the calls show of it: one leader at most, which may change at any time, and calls that succeed
on the leader only, where they may still fail.
-/

namespace Picloud

open Lib

/-! ## The tasks -/

/-- The membership watcher of a node. -/
inductive Watcher where
  | sleeping
  /-- The loop over the peers, at its head. -/
  | scanning (rest : List PeerInfo)
  /-- `add_learner` is running for a peer. -/
  | addingLearner (peer : PeerInfo) (rest : List PeerInfo)
  /-- The peer has become a learner. -/
  | addedLearner (peer : PeerInfo) (rest : List PeerInfo)
  /-- The peer is a known member. -/
  | promoting (rest : List PeerInfo)
  /-- `change_membership` is running. -/
  | changing (members : Finset RaftId) (rest : List PeerInfo)

/-- The stale-peer sweep of a node. -/
inductive Sweeper where
  | sleeping
  /-- The loop over the stale peers, at its head. -/
  | removing (isLeader : Bool) (rest : List PeerInfo)
  /-- The peer is no known member any more. -/
  | removed (rest : List PeerInfo)
  /-- `change_membership` is running. -/
  | changing (members : Finset RaftId) (rest : List PeerInfo)

/-- The loop of the watcher over the peers that are left. -/
def Watcher.next : List PeerInfo → Watcher
  | [] => .sleeping
  | rest => .scanning rest

/-- The loop of the sweep over the peers that are left. -/
def Sweeper.next (isLeader : Bool) : List PeerInfo → Sweeper
  | [] => .sleeping
  | rest => .removing isLeader rest

/-- The set that a running call of the watcher carries. -/
def Watcher.carried : Watcher → Option (Finset RaftId)
  | .changing members _ => some members
  | _ => none

/-- The set that a running call of the sweep carries. -/
def Sweeper.carried : Sweeper → Option (Finset RaftId)
  | .changing members _ => some members
  | _ => none

/-- The stale peers that the sweep has not come to yet. -/
def Sweeper.rest : Sweeper → List PeerInfo
  | .sleeping => []
  | .removing _ rest => rest
  | .removed rest => rest
  | .changing _ rest => rest

/-! ## Nodes -/

/-- A node, as far as the membership goes. -/
structure MembershipNode where
  peers : PeerList
  /-- The clock. -/
  now : ℕ
  /-- `known_raft_members`. -/
  known : Finset RaftId
  watcher : Watcher
  sweeper : Sweeper
  /-- The peers that sweeps have returned as stale so far: a record, which the code does not keep. -/
  swept : Finset RaftId

/-- What a node does. -/
inductive NodeAction where
  /-- Time passes. -/
  | wait (duration : ℕ)
  /-- mDNS resolves a peer. -/
  | resolve (peer : PeerInfo)
  /-- The mDNS service of a peer is gone. -/
  | unresolve (fullname : String)
  /-- The watcher wakes up and lists the peers, in some order. -/
  | wake (order : List PeerInfo)
  /-- The watcher looks a peer up in the known set. -/
  | lookUp
  /-- `add_learner` returns. -/
  | learnerAdded (success : Bool)
  /-- The watcher inserts the peer into the known set. -/
  | insertKnown
  /-- The watcher reads the known set and calls `change_membership`. -/
  | callPromote
  /-- The call of the watcher returns. -/
  | promoted (success : Bool)
  /-- The sweep wakes up: its stale peers in some order, and the leader that the metrics show. -/
  | sweep (order : List PeerInfo) (currentLeader : Option RaftId)
  /-- The sweep removes a peer from the known set. -/
  | removeKnown
  /-- The sweep reads the known set and calls `change_membership`. -/
  | callRemove
  /-- The call of the sweep returns. -/
  | removed (success : Bool)

namespace MembershipNode

/-- A node when its process starts. -/
def start (self : Uuid) : MembershipNode :=
  ⟨.new, 0, {nodeIdFromUuid self}, .sleeping, .sleeping, ∅⟩

/-- The age from which on a peer is stale. -/
def maxAge : ℕ := 30000

/-- The voters that the action puts in place: a call of `change_membership` succeeds. -/
def effect (node : MembershipNode) : NodeAction → Option (Finset RaftId)
  | .promoted true => node.watcher.carried
  | .removed true => node.sweeper.carried
  | _ => none

/-- The sets that the running calls carry. -/
def running (node : MembershipNode) : List (Finset RaftId) :=
  node.watcher.carried.toList ++ node.sweeper.carried.toList

/-- Every voter is in the set, or the node has swept it. -/
def Covers (node : MembershipNode) (members voters : Finset RaftId) : Prop :=
  ∀ v ∈ voters, v ∈ members ∨ v ∈ node.swept

/-- The call that returns succeeds. -/
def succeeds : NodeAction → Bool
  | .learnerAdded success => success
  | .promoted success => success
  | .removed success => success
  | _ => false

/-- One step of a node. -/
def step (self : Uuid) (node : MembershipNode) : NodeAction → Option MembershipNode
  | .wait duration => some { node with now := node.now + duration }
  | .resolve peer => some { node with peers := node.peers.resolved node.now self peer }
  | .unresolve fullname => some { node with peers := node.peers.removeByFullname fullname }
  | .wake order =>
    match node.watcher with
    | .sleeping =>
      if order.Perm node.peers.peers then some { node with watcher := .next order } else none
    | _ => none
  | .lookUp =>
    match node.watcher with
    | .scanning (peer :: rest) =>
      if peer.raftId ∈ node.known then some { node with watcher := .next rest }
      else some { node with watcher := .addingLearner peer rest }
    | _ => none
  | .learnerAdded success =>
    match node.watcher with
    | .addingLearner peer rest =>
      if success then some { node with watcher := .addedLearner peer rest }
      else some { node with watcher := .next rest }
    | _ => none
  | .insertKnown =>
    match node.watcher with
    | .addedLearner peer rest =>
      some { node with known := insert peer.raftId node.known, watcher := .promoting rest }
    | _ => none
  | .callPromote =>
    match node.watcher with
    | .promoting rest => some { node with watcher := .changing node.known rest }
    | _ => none
  | .promoted _ =>
    match node.watcher with
    | .changing _ rest => some { node with watcher := .next rest }
    | _ => none
  | .sweep order currentLeader =>
    match node.sweeper with
    | .sleeping =>
      if order.Perm (node.peers.stale node.now maxAge) then
        some { node with
          peers := node.peers.sweepStale node.now maxAge
          sweeper := .next (currentLeader = some (nodeIdFromUuid self)) order
          swept := node.swept ∪ (order.map PeerInfo.raftId).toFinset }
      else none
    | _ => none
  | .removeKnown =>
    match node.sweeper with
    | .removing isLeader (peer :: rest) =>
      some { node with
        known := node.known.erase peer.raftId
        sweeper := if isLeader then .removed rest else .next false rest }
    | _ => none
  | .callRemove =>
    match node.sweeper with
    | .removed rest => some { node with sweeper := .changing node.known rest }
    | _ => none
  | .removed _ =>
    match node.sweeper with
    | .changing _ rest => some { node with sweeper := .next true rest }
    | _ => none

end MembershipNode

/-! ## The cluster -/

/-- The nodes with what Raft has agreed on. -/
structure MembershipCluster where
  nodes : Uuid → MembershipNode
  leader : Option Uuid
  voters : Finset RaftId

/-- What can happen in the cluster. -/
inductive MembershipAction where
  /-- The leader changes, or is lost. -/
  | elect (leader : Option Uuid)
  /-- The process of a node starts again. -/
  | restart (node : Uuid)
  /-- A node does something. -/
  | act (node : Uuid) (action : NodeAction)

namespace MembershipCluster

/-- One node has bootstrapped the cluster. -/
def bootstrapped (first : Uuid) : MembershipCluster :=
  ⟨MembershipNode.start, none, {nodeIdFromUuid first}⟩

/-- One step of the cluster: calls succeed on the leader only. -/
def step (s : MembershipCluster) : MembershipAction → Option MembershipCluster
  | .elect leader => some { s with leader := leader }
  | .restart n => some { s with
      nodes := Function.update s.nodes n { MembershipNode.start n with swept := (s.nodes n).swept }
      leader := if s.leader = some n then none else s.leader }
  | .act n action =>
    if MembershipNode.succeeds action ∧ s.leader ≠ some n then none
    else ((s.nodes n).step n action).map fun node =>
      { s with
        nodes := Function.update s.nodes n node
        voters := ((s.nodes n).effect action).getD s.voters }

/-- The change of the voters that the action puts in place, with the node that issued it. -/
def effect (s : MembershipCluster) : MembershipAction → Option (Uuid × Finset RaftId)
  | .act n action =>
    if s.leader = some n then ((s.nodes n).effect action).map (n, ·) else none
  | _ => none

/-! ## What is claimed, and the condition -/

/-- A voter that the action removes has been returned as stale by a sweep of the node that issued
the change. -/
def RemovesOnlySwept (s : MembershipCluster) (action : MembershipAction) : Prop :=
  ∀ change ∈ s.effect action, ∀ v ∈ s.voters, v ∉ change.2 → v ∈ (s.nodes change.1).swept

/-- The step does not reach the defects: a task of the leader that reads the known set for a call
finds every voter there that the node has not swept, a call that takes effect does not meet a call of
the other task from before the new voters were known, and a node that becomes the leader has no such
call left. -/
def Informed (s : MembershipCluster) : MembershipAction → Prop
  | .elect leader => ∀ n ∈ leader, ∀ M ∈ (s.nodes n).running, (s.nodes n).Covers M s.voters
  | .act n .callPromote | .act n .callRemove =>
    s.leader = some n → (s.nodes n).Covers (s.nodes n).known s.voters
  | .act n (.promoted true) =>
    ∀ M ∈ (s.nodes n).watcher.carried, ∀ other ∈ (s.nodes n).sweeper.carried,
      (s.nodes n).Covers other M
  | .act n (.removed true) =>
    ∀ M ∈ (s.nodes n).sweeper.carried, ∀ other ∈ (s.nodes n).watcher.carried,
      (s.nodes n).Covers other M
  | _ => True

end MembershipCluster

/-! ## What a step of a node can do -/

@[simp] theorem Watcher.carried_next (rest : List PeerInfo) : (Watcher.next rest).carried = none := by
  cases rest <;> rfl

@[simp] theorem Sweeper.carried_next (isLeader : Bool) (rest : List PeerInfo) :
    (Sweeper.next isLeader rest).carried = none := by
  cases rest <;> rfl

@[simp] theorem Sweeper.rest_next (isLeader : Bool) (rest : List PeerInfo) :
    (Sweeper.next isLeader rest).rest = rest := by
  cases rest <;> rfl

namespace MembershipNode

/-- The call of the watcher that is running after an action. -/
def watcherCall (node : MembershipNode) : NodeAction → Option (Finset RaftId)
  | .callPromote => some node.known
  | .promoted _ => none
  | _ => node.watcher.carried

/-- The call of the sweep that is running after an action. -/
def sweeperCall (node : MembershipNode) : NodeAction → Option (Finset RaftId)
  | .callRemove => some node.known
  | .removed _ => none
  | _ => node.sweeper.carried

/-- What a step of a node does: calls start and end with their actions, the record grows, and a known
member goes only when the sweep removes it. -/
structure Moves (action : NodeAction) (node node' : MembershipNode) : Prop where
  watcher : node'.watcher.carried = node.watcherCall action
  sweeper : node'.sweeper.carried = node.sweeperCall action
  swept : node.swept ⊆ node'.swept
  known : ∀ v ∈ node.known, v ∈ node'.known ∨ ∃ peer ∈ node.sweeper.rest, peer.raftId = v
  rest : ∀ peer ∈ node'.sweeper.rest, peer ∈ node.sweeper.rest ∨ peer.raftId ∈ node'.swept

variable {self : Uuid} {node node' : MembershipNode} {action : NodeAction}

/-- A step of the watcher, which leaves the sweep and the record alone. -/
theorem Moves.of_watcher {peers : PeerList} {now : ℕ} {known : Finset RaftId} {watcher : Watcher}
    (hwatcher : watcher.carried = node.watcherCall action)
    (hsweeper : node.sweeper.carried = node.sweeperCall action) (hknown : node.known ⊆ known) :
    Moves action node ⟨peers, now, known, watcher, node.sweeper, node.swept⟩ where
  watcher := hwatcher
  sweeper := hsweeper
  swept := subset_rfl
  known _ hv := Or.inl (hknown hv)
  rest _ hp := Or.inl hp

/-- Every step of a node is such a move. -/
theorem moves_of_step (h : node.step self action = some node') : Moves action node node' := by
  cases action with
  | wait duration | resolve peer | unresolve fullname =>
    cases h
    exact .of_watcher rfl rfl subset_rfl
  | wake order =>
    simp only [step] at h
    split at h
    · rename_i hwatcher
      split_ifs at h
      cases h
      refine .of_watcher ?_ rfl subset_rfl
      show _ = node.watcher.carried
      rw [Watcher.carried_next, hwatcher]
      rfl
    · cases h
  | lookUp =>
    simp only [step] at h
    split at h
    · rename_i peer rest hwatcher
      have hnone : node.watcherCall .lookUp = none := by simp [watcherCall, hwatcher, Watcher.carried]
      split_ifs at h <;> cases h
      · exact .of_watcher (by rw [hnone, Watcher.carried_next]) rfl subset_rfl
      · exact .of_watcher (by rw [hnone]; rfl) rfl subset_rfl
    · cases h
  | learnerAdded success =>
    simp only [step] at h
    split at h
    · rename_i peer rest hwatcher
      have hnone : node.watcherCall (.learnerAdded success) = none := by
        simp [watcherCall, hwatcher, Watcher.carried]
      split_ifs at h <;> cases h
      · exact .of_watcher (by rw [hnone]; rfl) rfl subset_rfl
      · exact .of_watcher (by rw [hnone, Watcher.carried_next]) rfl subset_rfl
    · cases h
  | insertKnown =>
    simp only [step] at h
    split at h
    · rename_i peer rest hwatcher
      cases h
      exact .of_watcher (by simp [watcherCall, hwatcher, Watcher.carried]) rfl
        (Finset.subset_insert _ _)
    · cases h
  | callPromote =>
    simp only [step] at h
    split at h
    · cases h
      exact .of_watcher rfl rfl subset_rfl
    · cases h
  | promoted success =>
    simp only [step] at h
    split at h
    · cases h
      exact .of_watcher (by simp [watcherCall]) rfl subset_rfl
    · cases h
  | sweep order currentLeader =>
    simp only [step] at h
    split at h
    · rename_i hsweeper
      split_ifs at h
      cases h
      refine ⟨rfl, ?_, Finset.subset_union_left, fun v hv => Or.inl hv,
        fun p hp => Or.inr (Finset.mem_union_right _ ?_)⟩
      · show _ = node.sweeper.carried
        rw [Sweeper.carried_next, hsweeper]
        rfl
      · rw [Sweeper.rest_next] at hp
        exact List.mem_toFinset.mpr (List.mem_map_of_mem hp)
    · cases h
  | removeKnown =>
    simp only [step] at h
    split at h
    · rename_i isLeader peer rest hsweeper
      cases h
      refine ⟨rfl, ?_, subset_rfl, fun v hv => ?_, fun p hp => Or.inl ?_⟩
      · have hnone : node.sweeperCall .removeKnown = none := by
          simp [sweeperCall, hsweeper, Sweeper.carried]
        rw [hnone]
        split_ifs
        · rfl
        · exact Sweeper.carried_next _ _
      · by_cases hpeer : v = peer.raftId
        · exact Or.inr ⟨peer, by simp [hsweeper, Sweeper.rest], hpeer.symm⟩
        · exact Or.inl (Finset.mem_erase.mpr ⟨hpeer, hv⟩)
      · have hrest : p ∈ rest := by
          split_ifs at hp
          · exact hp
          · rwa [Sweeper.rest_next] at hp
        simp [hsweeper, Sweeper.rest, hrest]
    · cases h
  | callRemove =>
    simp only [step] at h
    split at h
    · rename_i rest hsweeper
      cases h
      exact ⟨rfl, rfl, subset_rfl, fun v hv => Or.inl hv,
        fun p hp => Or.inl (by simpa [hsweeper, Sweeper.rest] using hp)⟩
    · cases h
  | removed success =>
    simp only [step] at h
    split at h
    · rename_i members rest hsweeper
      cases h
      refine ⟨rfl, by simp [sweeperCall], subset_rfl, fun v hv => Or.inl hv,
        fun p hp => Or.inl ?_⟩
      rw [Sweeper.rest_next] at hp
      simpa [hsweeper, Sweeper.rest] using hp
    · cases h

variable {M : Finset RaftId}

theorem mem_running :
    M ∈ node.running ↔ M ∈ node.watcher.carried ∨ M ∈ node.sweeper.carried := by
  simp [running]

theorem Covers.mono {voters : Finset RaftId} (h : node.Covers M voters)
    (hswept : node.swept ⊆ node'.swept) : node'.Covers M voters :=
  fun v hv => (h v hv).imp_right fun hmem => hswept hmem

theorem mem_running_of_effect (h : M ∈ node.effect action) :
    M ∈ node.running := by
  rw [mem_running]
  unfold effect at h
  split at h
  · exact Or.inl h
  · exact Or.inr h
  · cases h

theorem succeeds_of_effect (h : M ∈ node.effect action) :
    succeeds action = true := by
  unfold effect at h
  split at h
  · rfl
  · rfl
  · cases h

end MembershipNode

/-! ## Runs of the cluster -/

namespace MembershipCluster

variable {s s' : MembershipCluster}

/-- Every call that the leader has running covers the voters. -/
def CallsCover (s : MembershipCluster) : Prop :=
  ∀ n ∈ s.leader, ∀ M ∈ (s.nodes n).running, (s.nodes n).Covers M s.voters

theorem callsCover_bootstrapped (first : Uuid) : CallsCover (bootstrapped first) := by
  simp [CallsCover, bootstrapped]

variable {action : NodeAction} {n : Uuid}

/-- A step of a node in the cluster. -/
theorem act_cases (h : s.step (.act n action) = some s') :
    ∃ node, (s.nodes n).step n action = some node ∧
      (MembershipNode.succeeds action = true → s.leader = some n) ∧
      s' = ⟨Function.update s.nodes n node, s.leader,
        ((s.nodes n).effect action).getD s.voters⟩ := by
  simp only [step] at h
  split_ifs at h with hfail
  obtain ⟨node, hnode, rfl⟩ := Option.map_eq_some_iff.mp h
  refine ⟨node, hnode, fun hsucc => ?_, rfl⟩
  by_contra hleader
  exact hfail ⟨hsucc, hleader⟩

/-- A node that is not the leader puts no change in place. -/
theorem effect_eq_none {m : Uuid}
    (hsucc : MembershipNode.succeeds action = true → s.leader = some n) (hm : s.leader = some m)
    (hmn : m ≠ n) : (s.nodes n).effect action = none := by
  by_contra hsome
  obtain ⟨members, heff⟩ := Option.ne_none_iff_exists'.mp hsome
  have hn := hsucc (MembershipNode.succeeds_of_effect heff)
  exact hmn (Option.some.inj (hm.symm.trans hn))

/-- The calls of the leader after one of its own steps. -/
theorem covers_of_act {node : MembershipNode} (hs : CallsCover s) (hleader : s.leader = some n)
    (hinf : s.Informed (.act n action)) (hmoves : MembershipNode.Moves action (s.nodes n) node)
    {M : Finset RaftId} (hM : M ∈ node.running) :
    (s.nodes n).Covers M (((s.nodes n).effect action).getD s.voters) := by
  have hold : ∀ M ∈ (s.nodes n).running, (s.nodes n).Covers M s.voters := hs n hleader
  rw [MembershipNode.mem_running, hmoves.watcher, hmoves.sweeper] at hM
  cases action with
  | callPromote =>
    rcases hM with hnew | hother
    · obtain rfl := Option.some.inj hnew
      exact hinf hleader
    · exact hold M (MembershipNode.mem_running.mpr (Or.inr hother))
  | callRemove =>
    rcases hM with hother | hnew
    · exact hold M (MembershipNode.mem_running.mpr (Or.inl hother))
    · obtain rfl := Option.some.inj hnew
      exact hinf hleader
  | promoted success =>
    rcases hM with hnone | hother
    · cases hnone
    · have hbefore := hold M (MembershipNode.mem_running.mpr (Or.inr hother))
      cases success with
      | false => exact hbefore
      | true =>
        show (s.nodes n).Covers M ((s.nodes n).watcher.carried.getD s.voters)
        cases hcall : (s.nodes n).watcher.carried with
        | none => exact hbefore
        | some members => exact hinf members hcall M hother
  | removed success =>
    rcases hM with hother | hnone
    · have hbefore := hold M (MembershipNode.mem_running.mpr (Or.inl hother))
      cases success with
      | false => exact hbefore
      | true =>
        show (s.nodes n).Covers M ((s.nodes n).sweeper.carried.getD s.voters)
        cases hcall : (s.nodes n).sweeper.carried with
        | none => exact hbefore
        | some members => exact hinf members hcall M hother
    · cases hnone
  | _ => exact hold M (MembershipNode.mem_running.mpr hM)

/-- The invariant is kept by every informed step. -/
theorem callsCover_step {action : MembershipAction} (hs : CallsCover s) (hinf : s.Informed action)
    (h : s.step action = some s') : CallsCover s' := by
  cases action with
  | elect leader =>
    cases h
    exact hinf
  | restart n =>
    cases h
    intro m hm M hM
    by_cases hleader : s.leader = some n
    · simp [hleader] at hm
    · simp only [if_neg hleader] at hm
      have hmn : m ≠ n := fun heq => hleader (heq ▸ hm)
      simp only [Function.update_of_ne hmn] at hM ⊢
      exact hs m hm M hM
  | act n action =>
    obtain ⟨node, hnode, hleader, rfl⟩ := act_cases h
    intro m hm M hM
    by_cases hmn : m = n
    · subst hmn
      simp only [Function.update_self] at hM ⊢
      have hmoves := MembershipNode.moves_of_step hnode
      exact (covers_of_act hs hm hinf hmoves hM).mono hmoves.swept
    · simp only [Function.update_of_ne hmn] at hM ⊢
      rw [effect_eq_none hleader hm hmn]
      exact hs m hm M hM

/-- A call that covers the voters removes swept voters only. -/
theorem removesOnlySwept_of_callsCover (hs : CallsCover s) (action : MembershipAction) :
    s.RemovesOnlySwept action := by
  rintro ⟨n, M⟩ hM v hv hout
  cases action with
  | elect leader => cases hM
  | restart m => cases hM
  | act m action =>
    simp only [effect] at hM
    split_ifs at hM with hleader
    · obtain ⟨M', heff, hpair⟩ := Option.map_eq_some_iff.mp hM
      obtain ⟨rfl, rfl⟩ := Prod.mk.inj hpair
      have hrunning := MembershipNode.mem_running_of_effect heff
      exact (hs m hleader M' hrunning v hv).resolve_left hout
    · cases hM

/-- **In every run whose steps are informed, a change of the voters removes only voters that a sweep
of the node that issued it has returned as stale.** -/
theorem removes_only_swept (first : Uuid) (actions : List MembershipAction)
    (h : StepsMeet step Informed (bootstrapped first) actions) :
    StepsMeet step RemovesOnlySwept (bootstrapped first) actions :=
  h.of_invariant step (fun _ _ _ => callsCover_step)
    (fun _ action hs _ => removesOnlySwept_of_callsCover hs action) (callsCover_bootstrapped first)

/-! ## A run that is informed, and one that is not -/

/-- A peer at the given clock. -/
def samplePeer (nodeId : Uuid) (now : ℕ) : PeerInfo := ⟨nodeId, "pi", "10.0.0.1:7443", now⟩

/-- The watcher promotes the peer that it has come to. -/
def promotes (node : Uuid) : List MembershipAction :=
  [.act node .lookUp, .act node (.learnerAdded true), .act node .insertKnown,
    .act node .callPromote, .act node (.promoted true)]

/-- A node bootstraps the cluster, promotes a peer, and sweeps it when it is stale. -/
def addAndSweep : List MembershipAction :=
  [.elect (some 1), .act 1 (.resolve (samplePeer 2 0)), .act 1 (.wake [samplePeer 2 0])] ++
    promotes 1 ++
    [.act 1 (.wait 30001), .act 1 (.sweep [samplePeer 2 0] (some 1)), .act 1 .removeKnown,
      .act 1 .callRemove, .act 1 (.removed true)]

/-- A node promotes two peers; the first of them becomes the leader and promotes the node. -/
def failover : List MembershipAction :=
  [.elect (some 1), .act 1 (.resolve (samplePeer 2 0)), .act 1 (.resolve (samplePeer 3 0)),
      .act 1 (.wake [samplePeer 2 0, samplePeer 3 0])] ++ promotes 1 ++ promotes 1 ++
    [.elect (some 2), .act 2 (.resolve (samplePeer 1 0)), .act 2 (.wake [samplePeer 1 0])] ++
    promotes 2

-- the instances are named, since the search would find those that enumerate all ids
instance (node : MembershipNode) (members voters : Finset RaftId) :
    Decidable (node.Covers members voters) :=
  Finset.decidableDforallFinset

/-- The condition for the sets of two running calls. -/
def decidableCovers (node : MembershipNode) (calls others : Option (Finset RaftId)) :
    Decidable (∀ M ∈ calls, ∀ other ∈ others, node.Covers other M) :=
  have (M : Finset RaftId) : Decidable (∀ other ∈ others, node.Covers other M) :=
    Option.decidableForallMem others
  Option.decidableForallMem calls

instance Informed.decidable (s : MembershipCluster) : (action : MembershipAction) →
    Decidable (s.Informed action)
  | .elect leader =>
    have (n : Uuid) : Decidable (∀ M ∈ (s.nodes n).running, (s.nodes n).Covers M s.voters) :=
      List.decidableBAll _ _
    Option.decidableForallMem leader
  | .act n .callPromote | .act n .callRemove =>
    inferInstanceAs (Decidable (s.leader = some n → (s.nodes n).Covers (s.nodes n).known s.voters))
  | .act n (.promoted true) =>
    decidableCovers (s.nodes n) (s.nodes n).watcher.carried (s.nodes n).sweeper.carried
  | .act n (.removed true) =>
    decidableCovers (s.nodes n) (s.nodes n).sweeper.carried (s.nodes n).watcher.carried
  | .restart _ | .act _ (.wait _) | .act _ (.resolve _) | .act _ (.unresolve _) | .act _ (.wake _)
  | .act _ .lookUp | .act _ (.learnerAdded _) | .act _ .insertKnown | .act _ (.promoted false)
  | .act _ (.sweep _ _) | .act _ .removeKnown | .act _ (.removed false) => isTrue trivial

/-- A stale peer is removed. -/
theorem removes_stale_peer : (runSteps step (bootstrapped 1) addAndSweep).map voters = some {1} ∧
    StepsMeet step RemovesOnlySwept (bootstrapped 1) addAndSweep :=
  ⟨by decide +kernel, removes_only_swept 1 addAndSweep (by decide +kernel)⟩

instance (s : MembershipCluster) (action : MembershipAction) :
    Decidable (s.RemovesOnlySwept action) :=
  have (change : Uuid × Finset RaftId) :
      Decidable (∀ v ∈ s.voters, v ∉ change.2 → v ∈ (s.nodes change.1).swept) :=
    Finset.decidableDforallFinset
  Option.decidableForallMem (s.effect action)

/-- A new leader promotes a peer that is a voter already, and the third voter is removed: no node has
swept anything. -/
theorem new_leader_drops_voter :
    (runSteps step (bootstrapped 1) failover.dropLast).map voters = some {1, 2, 3} ∧
      (runSteps step (bootstrapped 1) failover).map voters = some {1, 2} ∧
      ¬ StepsMeet step RemovesOnlySwept (bootstrapped 1) failover := by
  refine ⟨?_, ?_, ?_⟩ <;> decide +kernel

end MembershipCluster

end Picloud
