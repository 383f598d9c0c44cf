import Picloud.Server.Replication
import Mathlib.Logic.Function.Basic

/-!
# Appends through Raft, with the local fallback

Reference: `WriteThroughEventLog` in `picloud-events/src/implementation.rs` and `write_cb` in
`src/main.rs`.

Clients append on any node. The write callback submits the event to Raft, and every node appends the
committed events to its local log through the apply callback. When the callback fails, the node
appends the event to its own log directly, although Raft may commit the entry all the same. Every
event of a local log therefore stems from a call by one of two routes, and a call uses each route at
most once on a node.

Raft itself is what `openraft` promises of it: one sequence of committed entries, to which the entry
of a call is added at most once, and before `client_write` returns `Ok`.
-/

namespace Picloud

open Lib

/-! ## The call -/

/-- `write_cb`, with what `client_write` returns if it is called. -/
def writeCb (J : JsonCodec EventEnvelope) (event : EventEnvelope)
    (clientWrite : Except String Unit) : Except PiCloudError Unit :=
  match J.toString event with
  | .error e => .error (.internal s!"failed to serialize event for Raft: {e}")
  | .ok _ =>
    match clientWrite with
    | .error e => .error (.internal s!"Raft client_write failed: {e}")
    | .ok () => .ok ()

/-- `WriteThroughEventLog::append` once its callback has returned: the local append it makes. -/
def writeThroughAppend (event : EventEnvelope) : Except PiCloudError Unit → List Task
  | .ok () => []
  | .error _ => [.checkKey event]

/-- A call of `WriteThroughEventLog::append`: where it was made, and what the callback returned. -/
structure WriteCall (n : ℕ) where
  node : Fin n
  event : EventEnvelope
  reply : Option (Except PiCloudError Unit)

/-- The callback has returned an error. -/
def WriteCall.Failed {n : ℕ} (w : WriteCall n) : Prop := ∃ err, w.reply = some (.error err)

/-! ## The cluster -/

/-- How an append comes to a local log. -/
inductive Route where
  | committed
  | fallback
deriving DecidableEq

/-- An append on a local log: the number of the call it stems from, its route and event, and the
sections still to come. -/
structure LocalAppend where
  call : Option ℕ
  route : Route
  event : EventEnvelope
  task : Task
deriving DecidableEq

/-- The local append that a task starts. -/
def LocalAppend.of (call : Option ℕ) (route : Route) (t : Task) : Option LocalAppend :=
  t.event.map fun e => ⟨call, route, e, t⟩

/-- One section of a local append. -/
def LocalAppend.step (J : JsonCodec EventEnvelope) (log : PersistentEventLog) (a : LocalAppend) :
    Option (PersistentEventLog × LocalAppend) :=
  match PersistentEventLog.logStep J log a.task with
  | some (log', t) => some (log', { a with task := t })
  | none => none

/-- An entry of the committed Raft log, and the call that submitted it if there is one. -/
structure CommittedEntry where
  entry : Entry
  call : Option ℕ

/-- A node: its state machine, how many committed entries it has applied, and its event log with the
appends on it. -/
structure LocalNode where
  machine : SledStateMachine
  applied : ℕ
  pool : Pool PersistentEventLog LocalAppend

/-- The cluster: the calls made so far, the committed Raft log and the nodes. -/
structure Cluster (n : ℕ) where
  calls : List (WriteCall n)
  committed : List CommittedEntry
  nodes : Fin n → LocalNode

/-- What can happen next. -/
inductive ClusterAct (n : ℕ) where
  /-- A client calls `WriteThroughEventLog::append` on a node. -/
  | call (i : Fin n) (event : EventEnvelope)
  /-- Raft commits the entry of a call, whether or not `client_write` has returned. -/
  | commit (id : LogId) (c : ℕ)
  /-- Raft commits a blank or a membership entry. -/
  | commitOther (entry : Entry)
  /-- `client_write` returns. -/
  | reply (c : ℕ) (clientWrite : Except String Unit)
  /-- A node applies the next committed entry. A batch is several of these in a row. -/
  | apply (i : Fin n)
  /-- A local append executes its next section. -/
  | step (i : Fin n) (k : ℕ)

namespace Cluster

variable {n : ℕ}

/-- No calls yet, and an empty log on every node. -/
def new (paths : Fin n → String) : Cluster n where
  calls := []
  committed := []
  nodes i := ⟨SledStateMachine.new, 0, ⟨PersistentEventLog.fresh (paths i), []⟩⟩

/-- The entry of the call is in the committed log. -/
def isCommitted (cl : Cluster n) (c : ℕ) : Bool := cl.committed.any fun e => e.call == some c

/-- Replace the state of a node. -/
def setNode (cl : Cluster n) (i : Fin n) (node : LocalNode) : Cluster n :=
  { cl with nodes := Function.update cl.nodes i node }

/-- Start local appends on a node. -/
def spawn (cl : Cluster n) (i : Fin n) (as : List LocalAppend) : Cluster n :=
  cl.setNode i
    { cl.nodes i with pool := ⟨(cl.nodes i).pool.shared, (cl.nodes i).pool.tasks ++ as⟩ }

/-- The callback returns to the call, which goes on from there. -/
def respond (cl : Cluster n) (c : ℕ) (w : WriteCall n) (r : Except PiCloudError Unit) :
    Cluster n :=
  spawn { cl with calls := cl.calls.set c { w with reply := some r } } w.node
    ((writeThroughAppend w.event r).filterMap (LocalAppend.of (some c) .fallback))

/-- One action; `none` if it is not possible. -/
def next (J : JsonCodec EventEnvelope) (cl : Cluster n) : ClusterAct n → Option (Cluster n)
  | .call i event => some { cl with calls := cl.calls ++ [⟨i, event, none⟩] }
  | .commit id c =>
    match cl.calls[c]? with
    | none => none
    | some w =>
      match J.toString w.event with
      -- `write_cb` has not got as far as `client_write`
      | .error _ => none
      | .ok json =>
        if cl.isCommitted c then none
        else some { cl with committed := cl.committed ++ [⟨⟨id, .normal ⟨json⟩⟩, some c⟩] }
  | .commitOther entry =>
    if entry.eventJson = none then some { cl with committed := cl.committed ++ [⟨entry, none⟩] }
    else none
  | .reply c clientWrite =>
    match cl.calls[c]? with
    | none => none
    | some w =>
      -- `Ok` is only returned for a committed entry; an error says nothing about the entry
      if w.reply.isSome || (clientWrite.isOk && !cl.isCommitted c) then none
      else some (cl.respond c w (writeCb J w.event clientWrite))
  | .apply i =>
    match cl.committed[(cl.nodes i).applied]? with
    | none => none
    | some e =>
      match (cl.nodes i).machine.apply [e.entry] with
      | .error _ => none
      | .ok (_, delivered, machine) =>
        let node := { cl.nodes i with machine, applied := (cl.nodes i).applied + 1 }
        some ((cl.setNode i node).spawn i
          ((delivered.flatMap (applyCb J)).filterMap (LocalAppend.of e.call .committed)))
  | .step i k =>
    match Pool.next id (LocalAppend.step J) (cl.nodes i).pool (.step k) with
    | none => none
    | some pool => some (cl.setNode i { cl.nodes i with pool })

/-- The events in the local log of a node. -/
def localEvents (cl : Cluster n) (i : Fin n) : List EventEnvelope :=
  (cl.nodes i).pool.shared.inner.events

/-! ## Contributions -/

end Cluster

/-- The append has stored its event. -/
def Task.hasStored : Task → Bool
  | .inner (.done .stored) => true
  | _ => false

/-- The event that a local append has stored. -/
def LocalAppend.stored (a : LocalAppend) : Option EventEnvelope :=
  if a.task.hasStored then some a.event else none

/-- The append stores for the call, by the route. -/
def LocalAppend.storesFor (c : ℕ) (r : Route) (a : LocalAppend) : Bool :=
  a.call == some c && a.route == r && a.task.hasStored

namespace Cluster

variable {n : ℕ}

/-- How often a call has contributed its event to the local log of a node by a route. -/
def contributionsBy (cl : Cluster n) (r : Route) (i : Fin n) (c : ℕ) : ℕ :=
  (cl.nodes i).pool.tasks.countP (LocalAppend.storesFor c r)

/-- How often a call has contributed its event to the local log of a node. -/
def contributions (cl : Cluster n) (i : Fin n) (c : ℕ) : ℕ :=
  cl.contributionsBy .committed i c + cl.contributionsBy .fallback i c

end Cluster

variable {t : Task}

theorem Task.hasStored_of_event {e : EventEnvelope} (h : t.event = some e) :
    t.hasStored = false := by
  unfold Task.event at h
  split at h <;> first | rfl | cases h

/-- A section of an unfinished append stores its event and ends the append, or stores nothing. -/
theorem logStep_event {J : JsonCodec EventEnvelope} {log log' : PersistentEventLog} {t' : Task}
    {e : EventEnvelope} (h : PersistentEventLog.logStep J log t = some (log', t'))
    (he : t.event = some e) :
    (log'.inner.events = log.inner.events ++ [e] ∧ t'.hasStored = true ∧ t'.finished = true) ∨
    (log'.inner.events = log.inner.events ∧ t'.hasStored = false ∧
      (t'.event = some e ∨ t'.finished = true)) := by
  cases PersistentEventLog.section_of_logStep h with
  | keySeen hdup => exact Or.inr ⟨rfl, rfl, Or.inr rfl⟩
  | unwritable hdup htext => exact Or.inr ⟨rfl, rfl, Or.inr rfl⟩
  | serialised hdup htext => exact Or.inr ⟨rfl, rfl, Or.inl he⟩
  | lineWritten => exact Or.inr ⟨rfl, rfl, Or.inl he⟩
  | keySeenInside hdup => exact Or.inr ⟨rfl, rfl, Or.inr rfl⟩
  | keyFree hdup => exact Or.inr ⟨rfl, rfl, Or.inl he⟩
  | keyRecorded => exact Or.inr ⟨InMemoryEventLog.recordKey_events _ _, rfl, Or.inl he⟩
  | sent => exact Or.inr ⟨rfl, rfl, Or.inl he⟩
  | pushed =>
    obtain rfl := Option.some.inj he
    exact Or.inl ⟨rfl, rfl, rfl⟩
  | _ => cases he

theorem logStep_of_finished {J : JsonCodec EventEnvelope} {log : PersistentEventLog}
    (h : t.finished = true) : PersistentEventLog.logStep J log t = none := by
  unfold Task.finished at h
  split at h
  · rfl
  · rfl
  · cases h

/-! ## Where local appends stem from -/

namespace Cluster

variable {n : ℕ} {J : RoundTripCodec EventEnvelope} {cl cl' : Cluster n}

/-- The append stems from a call: by a committed entry that the node has applied, or because the
call was made on this node and failed. -/
def Stems (cl : Cluster n) (i : Fin n) (a : LocalAppend) : Prop :=
  ∃ (c : ℕ) (w : WriteCall n), a.call = some c ∧ cl.calls[c]? = some w ∧ w.event = a.event ∧
    match a.route with
    | .committed => ∃ (j : ℕ) (e : CommittedEntry), j < (cl.nodes i).applied ∧
        cl.committed[j]? = some e ∧ e.call = some c
    | .fallback => w.node = i ∧ w.Failed

/-- Calls keep what they are and committed entries keep their place; nothing is unapplied. -/
structure Extends (cl cl' : Cluster n) : Prop where
  calls : ∀ (c : ℕ) (w : WriteCall n), cl.calls[c]? = some w → ∃ w' : WriteCall n,
    cl'.calls[c]? = some w' ∧ w'.node = w.node ∧ w'.event = w.event ∧ (w.Failed → w'.Failed)
  committed : ∀ (j : ℕ) (e : CommittedEntry), cl.committed[j]? = some e →
    cl'.committed[j]? = some e
  applied : ∀ i, (cl.nodes i).applied ≤ (cl'.nodes i).applied

variable {i : Fin n} {e : CommittedEntry} {c : ℕ}

theorem Stems.mono {a : LocalAppend} (h : cl.Stems i a) (hext : Extends cl cl') :
    cl'.Stems i a := by
  obtain ⟨c, w, hcall, hw, hevent, hroute⟩ := h
  obtain ⟨w', hw', hnode, hevent', hfailed⟩ := hext.calls c w hw
  refine ⟨c, w', hcall, hw', hevent'.trans hevent, ?_⟩
  cases hr : a.route with
  | committed =>
    rw [hr] at hroute
    obtain ⟨j, e, hj, hentry, he⟩ := hroute
    exact ⟨j, e, lt_of_lt_of_le hj (hext.applied i), hext.committed j e hentry, he⟩
  | fallback =>
    rw [hr] at hroute
    exact ⟨hnode.trans hroute.1, hfailed hroute.2⟩

/-- The invariant of a node: each append stems from a call, no two from one call by one route, an
unfinished append has its event at hand, and the log holds what the appends have stored. -/
structure NodeInv (cl : Cluster n) (i : Fin n) : Prop where
  stems : ∀ a ∈ (cl.nodes i).pool.tasks, cl.Stems i a
  once : ((cl.nodes i).pool.tasks.map fun a => (a.call, a.route)).Nodup
  carries : ∀ a ∈ (cl.nodes i).pool.tasks, a.task.event = some a.event ∨ a.task.finished = true
  stored : (cl.localEvents i).Perm ((cl.nodes i).pool.tasks.filterMap LocalAppend.stored)

/-- A committed entry holds the text of the event of its call, or no event. -/
def Submitted (J : JsonCodec EventEnvelope) (cl : Cluster n) (e : CommittedEntry) : Prop :=
  (∃ (c : ℕ) (w : WriteCall n) (json : String), e.call = some c ∧ cl.calls[c]? = some w ∧
    J.toString w.event = .ok json ∧ e.entry.eventJson = some json) ∨
  (e.call = none ∧ e.entry.eventJson = none)

/-- The invariant of the cluster. -/
structure Inv (J : JsonCodec EventEnvelope) (cl : Cluster n) : Prop where
  submitted : ∀ e ∈ cl.committed, cl.Submitted J e
  commitOnce : ∀ {j k c : ℕ} {e f : CommittedEntry}, cl.committed[j]? = some e →
    cl.committed[k]? = some f → e.call = some c → f.call = some c → j = k
  nodes : ∀ i, cl.NodeInv i

theorem Submitted.mono (h : cl.Submitted J e) (hext : Extends cl cl') :
    cl'.Submitted J e := by
  rcases h with ⟨c, w, json, hcall, hw, hjson, hentry⟩ | hnone
  · obtain ⟨w', hw', -, hevent, -⟩ := hext.calls c w hw
    exact Or.inl ⟨c, w', json, hcall, hw', hevent.symm ▸ hjson, hentry⟩
  · exact Or.inr hnone

theorem NodeInv.mono (h : cl.NodeInv i) (hext : Extends cl cl')
    (hpool : (cl'.nodes i).pool = (cl.nodes i).pool) : cl'.NodeInv i := by
  refine ⟨?_, ?_, ?_, ?_⟩
  · intro a ha
    rw [hpool] at ha
    exact (h.stems a ha).mono hext
  · rw [hpool]
    exact h.once
  · rw [hpool]
    exact h.carries
  · rw [localEvents, hpool]
    exact h.stored

/-! ## Changes to one node -/

@[simp] theorem setNode_nodes_self (cl : Cluster n) (i : Fin n) (node : LocalNode) :
    (cl.setNode i node).nodes i = node := by
  simp [setNode]

theorem setNode_nodes_ne (cl : Cluster n) {j : Fin n} (h : j ≠ i) (node : LocalNode) :
    (cl.setNode i node).nodes j = cl.nodes j := by
  simp [setNode, h]

theorem extends_setNode {node : LocalNode} (h : (cl.nodes i).applied ≤ node.applied) :
    Extends cl (cl.setNode i node) := by
  refine ⟨fun c w hw => ⟨w, hw, rfl, rfl, id⟩, fun _ _ he => he, fun j => ?_⟩
  by_cases hj : j = i
  · subst hj
    rw [setNode_nodes_self]
    exact h
  · rw [setNode_nodes_ne cl hj]

/-- The nodes after one of them has changed. -/
theorem nodeInv_setNode (h : ∀ j, cl.NodeInv j) {node : LocalNode}
    (happlied : (cl.nodes i).applied ≤ node.applied) (hi : (cl.setNode i node).NodeInv i) :
    ∀ j, (cl.setNode i node).NodeInv j := by
  intro j
  by_cases hj : j = i
  · exact hj ▸ hi
  · exact (h j).mono (extends_setNode happlied) (by rw [setNode_nodes_ne cl hj])

/-- A new append, by a route that its call has not used on the node. -/
theorem nodeInv_spawn (h : ∀ j, cl.NodeInv j) {a : LocalAppend}
    (hevent : a.task.event = some a.event) (hstems : cl.Stems i a)
    (hnew : ∀ b ∈ (cl.nodes i).pool.tasks, b.call = a.call → b.route ≠ a.route) :
    ∀ j, (cl.spawn i [a]).NodeInv j := by
  have hext : Extends cl (cl.spawn i [a]) := extends_setNode le_rfl
  refine nodeInv_setNode h le_rfl ⟨?_, ?_, ?_, ?_⟩
  · intro b hb
    rw [setNode_nodes_self, List.mem_append, List.mem_singleton] at hb
    rcases hb with hb | rfl
    · exact ((h i).stems b hb).mono hext
    · exact hstems.mono hext
  · rw [setNode_nodes_self, List.map_append, List.nodup_append]
    refine ⟨(h i).once, List.nodup_singleton _, ?_⟩
    intro x hx y hy hxy
    obtain ⟨b, hb, rfl⟩ := List.mem_map.mp hx
    rw [List.map_singleton, List.mem_singleton] at hy
    rw [hy, Prod.mk.injEq] at hxy
    exact hnew b hb hxy.1 hxy.2
  · intro b hb
    rw [setNode_nodes_self, List.mem_append, List.mem_singleton] at hb
    rcases hb with hb | rfl
    · exact (h i).carries b hb
    · exact Or.inl hevent
  · have hnone : a.stored = none := by
      rw [LocalAppend.stored, Task.hasStored_of_event hevent]
      rfl
    rw [localEvents, setNode_nodes_self, List.filterMap_append, List.filterMap_cons, hnone,
      List.filterMap_nil, List.append_nil]
    exact (h i).stored

/-- A section of an append. -/
theorem nodeInv_step (h : ∀ j, cl.NodeInv j) {k : ℕ} {pool : Pool PersistentEventLog LocalAppend}
    (hstep : Pool.next id (LocalAppend.step J) (cl.nodes i).pool (.step k) = some pool) :
    ∀ j, (cl.setNode i { cl.nodes i with pool }).NodeInv j := by
  obtain ⟨c, hc, -⟩ | ⟨k', a, log, a', hk, ha, hlog, rfl⟩ := Pool.next_cases hstep
  · cases hc
  obtain rfl : k = k' := Pool.Act.step.inj hk
  rw [LocalAppend.step] at hlog
  split at hlog
  swap
  · cases hlog
  next log' t' hlogStep =>
  cases hlog
  have hmem : a ∈ (cl.nodes i).pool.tasks := List.mem_of_getElem? ha
  have hevent : a.task.event = some a.event := by
    rcases (h i).carries a hmem with hevent | hdone
    · exact hevent
    · rw [logStep_of_finished hdone] at hlogStep
      cases hlogStep
  have hnone : a.stored = none := by
    rw [LocalAppend.stored, Task.hasStored_of_event hevent]
    rfl
  have hperm := Pool.filterMap_set_perm ha { a with task := t' } LocalAppend.stored
  rw [hnone, Option.toList_none, List.nil_append] at hperm
  refine nodeInv_setNode h le_rfl ⟨?_, ?_, ?_, ?_⟩
  · intro b hb
    rw [setNode_nodes_self] at hb
    rcases Pool.mem_set_imp hb with rfl | hb
    · exact ((h i).stems a hmem).mono (extends_setNode le_rfl)
    · exact ((h i).stems b hb).mono (extends_setNode le_rfl)
  · -- the section changes neither call nor route
    have hsame : (((cl.nodes i).pool.tasks.set k { a with task := t' }).map
        fun a => (a.call, a.route)) = (cl.nodes i).pool.tasks.map fun a => (a.call, a.route) :=
      Pool.map_set_of_eq ha rfl
    rw [setNode_nodes_self]
    exact hsame ▸ (h i).once
  · intro b hb
    rw [setNode_nodes_self] at hb
    rcases Pool.mem_set_imp hb with rfl | hb
    · rcases logStep_event hlogStep hevent with ⟨-, -, hdone⟩ | ⟨-, -, hkeep⟩
      · exact Or.inr hdone
      · exact hkeep
    · exact (h i).carries b hb
  · rw [localEvents, setNode_nodes_self]
    rcases logStep_event hlogStep hevent with ⟨hevents, hstored, -⟩ | ⟨hevents, hstored, -⟩
    · -- the section stores the event of the append, which ends with it
      rw [LocalAppend.stored, if_pos hstored, Option.toList_some, List.singleton_append] at hperm
      show log.inner.events.Perm _
      rw [hevents]
      exact (List.perm_append_singleton _ _).trans (((h i).stored.cons _).trans hperm.symm)
    · rw [LocalAppend.stored, hstored] at hperm
      show log.inner.events.Perm _
      rw [hevents]
      exact (h i).stored.trans hperm.symm

/-! ## Every action keeps the invariant -/

theorem spawn_nil (cl : Cluster n) (i : Fin n) : cl.spawn i [] = cl := by
  rw [spawn, setNode, List.append_nil]
  exact congrArg (Cluster.mk cl.calls cl.committed) (Function.update_eq_self i cl.nodes)

theorem isCommitted_eq_false_iff :
    cl.isCommitted c = false ↔ ∀ e ∈ cl.committed, e.call ≠ some c := by
  simp [isCommitted]

theorem inv_new (J : JsonCodec EventEnvelope) (paths : Fin n → String) :
    (new paths).Inv J := by
  refine ⟨fun _ he => (List.not_mem_nil he).elim, fun he => ?_, fun i => ?_⟩
  · simp [new] at he
  · exact ⟨fun _ ha => (List.not_mem_nil ha).elim, List.nodup_nil,
      fun _ ha => (List.not_mem_nil ha).elim, List.Perm.nil⟩

theorem Inv.call (h : cl.Inv J) (w : WriteCall n) :
    Inv J { cl with calls := cl.calls ++ [w] } := by
  have hext : Extends cl { cl with calls := cl.calls ++ [w] } := by
    refine ⟨fun c u hu => ⟨u, ?_, rfl, rfl, id⟩, fun _ _ he => he, fun _ => le_rfl⟩
    rw [List.getElem?_append_left (List.getElem?_eq_some_iff.mp hu).1]
    exact hu
  exact ⟨fun e he => (h.submitted e he).mono hext, h.commitOnce,
    fun i => (h.nodes i).mono hext rfl⟩

/-- A committed entry is added, for a call that has none yet. -/
theorem Inv.commit (h : cl.Inv J) (hsub : cl.Submitted J e)
    (hnew : ∀ c, e.call = some c → cl.isCommitted c = false) :
    Inv J { cl with committed := cl.committed ++ [e] } := by
  have hext : Extends cl { cl with committed := cl.committed ++ [e] } := by
    refine ⟨fun c u hu => ⟨u, hu, rfl, rfl, id⟩, fun j f hf => ?_, fun _ => le_rfl⟩
    rw [List.getElem?_append_left (List.getElem?_eq_some_iff.mp hf).1]
    exact hf
  have hcases : ∀ {j : ℕ} {f : CommittedEntry}, (cl.committed ++ [e])[j]? = some f →
      cl.committed[j]? = some f ∨ (j = cl.committed.length ∧ f = e) := by
    intro j f hf
    rw [List.getElem?_append] at hf
    split_ifs at hf with hj
    · exact Or.inl hf
    · obtain ⟨hlt, rfl⟩ := List.getElem?_eq_some_iff.mp hf
      rw [List.length_singleton] at hlt
      exact Or.inr ⟨by omega, by simp⟩
  refine ⟨?_, ?_, fun i => (h.nodes i).mono hext rfl⟩
  · intro f hf
    rcases List.mem_append.mp hf with hf | hf
    · exact (h.submitted f hf).mono hext
    · exact (List.mem_singleton.mp hf) ▸ hsub.mono hext
  · intro j k c f g hf hg hfc hgc
    rcases hcases hf with hold | ⟨rfl, rfl⟩ <;> rcases hcases hg with hold' | ⟨rfl, rfl⟩
    · exact h.commitOnce hold hold' hfc hgc
    · exact absurd hfc (isCommitted_eq_false_iff.mp (hnew c hgc) f (List.mem_of_getElem? hold))
    · exact absurd hgc (isCommitted_eq_false_iff.mp (hnew c hfc) g (List.mem_of_getElem? hold'))
    · rfl

/-- The callback returns to a call that was waiting for it. -/
theorem Inv.respond (h : cl.Inv J) {w : WriteCall n} (hw : cl.calls[c]? = some w)
    (hwait : w.reply = none) (r : Except PiCloudError Unit) : (cl.respond c w r).Inv J := by
  have hnot : ¬ w.Failed := by
    rintro ⟨err, herr⟩
    rw [hwait] at herr
    cases herr
  have hset : (cl.calls.set c { w with reply := some r })[c]? = some { w with reply := some r } :=
    List.getElem?_set_self (List.getElem?_eq_some_iff.mp hw).1
  have hext : Extends cl { cl with calls := cl.calls.set c { w with reply := some r } } := by
    refine ⟨fun d u hu => ?_, fun _ _ he => he, fun _ => le_rfl⟩
    by_cases hd : d = c
    · subst hd
      obtain rfl : w = u := Option.some.inj (hw.symm.trans hu)
      exact ⟨_, hset, rfl, rfl, fun hf => absurd hf hnot⟩
    · exact ⟨u, (List.getElem?_set_ne (Ne.symm hd)).trans hu, rfl, rfl, id⟩
  have hnodes := fun i => (h.nodes i).mono hext rfl
  have hsub := fun e he => (h.submitted e he).mono hext
  cases r with
  | ok u =>
    rw [Cluster.respond]
    show Inv J (spawn _ _ [])
    rw [spawn_nil]
    exact ⟨hsub, h.commitOnce, hnodes⟩
  | error err =>
    refine ⟨hsub, h.commitOnce, nodeInv_spawn hnodes rfl ⟨c, _, rfl, hset, rfl, rfl, err, rfl⟩ ?_⟩
    -- the node has no fallback of this call, since the call had not failed before
    intro b hb hcall hroute
    obtain ⟨d, u, hbc, hu, -, hstem⟩ := (h.nodes w.node).stems b hb
    obtain rfl : d = c := Option.some.inj (hbc.symm.trans hcall)
    obtain rfl : w = u := Option.some.inj (hw.symm.trans hu)
    rw [hroute] at hstem
    exact hnot hstem.2

/-- The apply callback starts one append for the entry of a call. -/
theorem applied_eq {event : EventEnvelope} {json : String} (hcall : e.call = some c)
    (hjson : J.toString event = .ok json) (hentry : e.entry.eventJson = some json) :
    ((eventTexts [e.entry]).flatMap (applyCb J)).filterMap (LocalAppend.of e.call .committed) =
      [⟨some c, .committed, event, .checkKey event⟩] := by
  rw [eventTexts_cons, eventTexts_nil, hentry, Option.toList_some, List.append_nil,
    List.flatMap_singleton, applyCb, J.fromStr_toString hjson, hcall]
  rfl

/-- A node applies the next committed entry. -/
theorem Inv.apply (h : cl.Inv J) {machine : SledStateMachine}
    (he : cl.committed[(cl.nodes i).applied]? = some e) :
    Inv J ((cl.setNode i ⟨machine, (cl.nodes i).applied + 1, (cl.nodes i).pool⟩).spawn i
      (((eventTexts [e.entry]).flatMap (applyCb J)).filterMap
        (LocalAppend.of e.call .committed))) := by
  have hext : Extends cl (cl.setNode i ⟨machine, (cl.nodes i).applied + 1, (cl.nodes i).pool⟩) :=
    extends_setNode (Nat.le_succ _)
  have hnodes : ∀ j,
      (cl.setNode i ⟨machine, (cl.nodes i).applied + 1, (cl.nodes i).pool⟩).NodeInv j :=
    nodeInv_setNode h.nodes (Nat.le_succ _) ((h.nodes i).mono hext (by rw [setNode_nodes_self]))
  rcases h.submitted e (List.mem_of_getElem? he) with ⟨c, w, json, hcall, hw, hjson, hentry⟩ |
    ⟨-, hentry⟩
  · rw [applied_eq hcall hjson hentry]
    refine ⟨h.submitted, h.commitOnce, nodeInv_spawn hnodes rfl ?_ ?_⟩
    · refine ⟨c, w, rfl, hw, rfl, (cl.nodes i).applied, e, ?_, he, hcall⟩
      rw [setNode_nodes_self]
      exact Nat.lt_succ_self _
    · -- the entry of the call is at one place of the committed log, which was not applied before
      intro b hb hbcall hroute
      rw [setNode_nodes_self] at hb
      obtain ⟨d, u, hbc, hu, -, hstem⟩ := (h.nodes i).stems b hb
      obtain rfl : d = c := Option.some.inj (hbc.symm.trans hbcall)
      rw [hroute] at hstem
      obtain ⟨j, f, hlt, hf, hfc⟩ := hstem
      have := h.commitOnce hf he hfc hcall
      omega
  · rw [eventTexts_cons, eventTexts_nil, hentry, Option.toList_none, List.nil_append,
      List.flatMap_nil, List.filterMap_nil, spawn_nil]
    exact ⟨h.submitted, h.commitOnce, hnodes⟩

/-- The step lemma. -/
theorem Inv.next (h : cl.Inv J) {a : ClusterAct n} (hnext : cl.next J a = some cl') :
    cl'.Inv J := by
  cases a with
  | call i event =>
    cases hnext
    exact h.call _
  | commit id c =>
    simp only [Cluster.next] at hnext
    split at hnext
    · cases hnext
    next w hw =>
    split at hnext
    · cases hnext
    next json hjson =>
    split_ifs at hnext with hcom
    cases hnext
    refine h.commit (Or.inl ⟨c, w, json, rfl, hw, hjson, rfl⟩) fun d hd => ?_
    exact Option.some.inj hd ▸ Bool.not_eq_true _ ▸ hcom
  | commitOther entry =>
    simp only [Cluster.next] at hnext
    split_ifs at hnext with hentry
    cases hnext
    exact h.commit (Or.inr ⟨rfl, hentry⟩) fun d hd => nomatch hd
  | reply c clientWrite =>
    simp only [Cluster.next] at hnext
    split at hnext
    · cases hnext
    next w hw =>
    split_ifs at hnext with hguard
    cases hnext
    refine h.respond hw ?_ _
    rw [Bool.or_eq_true, not_or] at hguard
    exact Option.not_isSome_iff_eq_none.mp hguard.1
  | apply i =>
    simp only [Cluster.next] at hnext
    split at hnext
    · cases hnext
    next e he =>
    split at hnext
    · cases hnext
    next responses delivered machine happly =>
    cases hnext
    rw [SledStateMachine.apply_delivered happly]
    exact h.apply he
  | step i k =>
    simp only [Cluster.next] at hnext
    split at hnext
    · cases hnext
    next pool hpool =>
    cases hnext
    exact ⟨h.submitted, h.commitOnce, nodeInv_step h.nodes hpool⟩

/-- The run lemma. -/
theorem inv_run {paths : Fin n → String} {acts : List (ClusterAct n)}
    (hrun : runSteps (Cluster.next J) (new paths) acts = some cl) : cl.Inv J :=
  runSteps_preserves (Cluster.next J) (fun _ _ _ h hnext => h.next hnext) acts _ _ (inv_new J paths)
    hrun

/-! ## What the local logs hold -/

theorem NodeInv.contributionsBy_le_one (h : cl.NodeInv i) (r : Route) (c : ℕ) :
    cl.contributionsBy r i c ≤ 1 := by
  have hcount : ((cl.nodes i).pool.tasks.map fun a => (a.call, a.route)).count (some c, r) ≤ 1 :=
    List.nodup_iff_count_le_one.mp h.once _
  rw [List.count, List.countP_map] at hcount
  refine le_trans (List.countP_mono_left fun a _ ha => ?_) hcount
  simp only [LocalAppend.storesFor, Bool.and_eq_true, beq_iff_eq] at ha
  simp [ha.1.1, ha.1.2]

/-- A contribution stems from the call it counts for. -/
theorem NodeInv.stems_of_contributes (h : cl.NodeInv i) {r : Route}
    (hpos : cl.contributionsBy r i c ≠ 0) :
    ∃ a : LocalAppend, a.call = some c ∧ a.route = r ∧ cl.Stems i a := by
  obtain ⟨a, ha, hstores⟩ := List.countP_pos_iff.mp (Nat.pos_of_ne_zero hpos)
  simp only [LocalAppend.storesFor, Bool.and_eq_true, beq_iff_eq] at hstores
  exact ⟨a, hstores.1.1, hstores.1.2, h.stems a ha⟩

/-- The fallback contributes only to the log of the node of the call, and only if it failed. -/
theorem NodeInv.fallback_imp (h : cl.NodeInv i) {w : WriteCall n} (hw : cl.calls[c]? = some w)
    (hpos : cl.contributionsBy .fallback i c ≠ 0) :
    w.node = i ∧ w.Failed := by
  obtain ⟨a, hcall, hroute, d, u, hd, hu, -, hstem⟩ := h.stems_of_contributes hpos
  obtain rfl : c = d := Option.some.inj (hcall.symm.trans hd)
  obtain rfl : w = u := Option.some.inj (hw.symm.trans hu)
  rw [hroute] at hstem
  exact hstem

/-- The other route is taken only by committed entries. -/
theorem NodeInv.committed_imp (h : cl.NodeInv i) (hpos : cl.contributionsBy .committed i c ≠ 0) :
    cl.isCommitted c = true := by
  obtain ⟨a, hcall, hroute, d, u, hd, -, -, hstem⟩ := h.stems_of_contributes hpos
  obtain rfl : c = d := Option.some.inj (hcall.symm.trans hd)
  rw [hroute] at hstem
  obtain ⟨j, e, -, he, hec⟩ := hstem
  exact List.any_eq_true.mpr ⟨e, List.mem_of_getElem? he, by simp [hec]⟩

/-- Every event of a local log is committed, or the event of a failed call on the node. -/
theorem Inv.mem_localEvents (h : cl.Inv J) {e : EventEnvelope} (he : e ∈ cl.localEvents i) :
    e ∈ committedEvents J (cl.committed.map CommittedEntry.entry) ∨
      ∃ w ∈ cl.calls, w.node = i ∧ w.event = e ∧ w.Failed := by
  have hmem := ((h.nodes i).stored.mem_iff).mp he
  obtain ⟨a, ha, hstored⟩ := List.mem_filterMap.mp hmem
  obtain ⟨c, w, hcall, hw, hevent, hroute⟩ := (h.nodes i).stems a ha
  have hae : a.event = e := by
    rw [LocalAppend.stored] at hstored
    split_ifs at hstored
    exact Option.some.inj hstored
  cases hr : a.route with
  | fallback =>
    rw [hr] at hroute
    exact Or.inr ⟨w, List.mem_of_getElem? hw, hroute.1, hevent.trans hae, hroute.2⟩
  | committed =>
    rw [hr] at hroute
    obtain ⟨j, f, -, hf, hfc⟩ := hroute
    have hfmem := List.mem_of_getElem? hf
    rcases h.submitted f hfmem with ⟨d, u, json, hd, hu, hjson, hentry⟩ | ⟨hnone, -⟩
    · obtain rfl : d = c := Option.some.inj (hd.symm.trans hfc)
      obtain rfl : w = u := Option.some.inj (hw.symm.trans hu)
      refine Or.inl (List.mem_flatMap.mpr ⟨json, ?_, ?_⟩)
      · exact List.mem_filterMap.mpr ⟨f.entry, List.mem_map_of_mem hfmem, hentry⟩
      · rw [J.fromStr_toString hjson, hevent, hae]
        exact List.mem_singleton_self e
    · rw [hnone] at hfc
      cases hfc

/-- **Replicated writes with a local fallback.** In every state of every run, every event of a local
log is an event of the committed Raft log or of a call on that node that failed; the log holds just
what the local appends have stored; and a call contributes to a log at most once by way of Raft and
at most once by way of the fallback, so at most once in all to the log of any other node, and of its
own node unless it failed and its entry is committed nevertheless. -/
theorem localEvents_stem_from_calls (J : RoundTripCodec EventEnvelope) (paths : Fin n → String)
    (acts : List (ClusterAct n)) (cl : Cluster n)
    (hrun : runSteps (Cluster.next J) (new paths) acts = some cl) (i : Fin n) :
    (∀ e ∈ cl.localEvents i, e ∈ committedEvents J (cl.committed.map CommittedEntry.entry) ∨
      ∃ w ∈ cl.calls, w.node = i ∧ w.event = e ∧ w.Failed) ∧
    (cl.localEvents i).Perm ((cl.nodes i).pool.tasks.filterMap LocalAppend.stored) ∧
    ∀ (c : ℕ) (w : WriteCall n), cl.calls[c]? = some w →
      (∀ r, cl.contributionsBy r i c ≤ 1) ∧
      (cl.contributionsBy .fallback i c = 1 → w.node = i ∧ w.Failed) ∧
      (w.node ≠ i ∨ ¬ w.Failed ∨ cl.isCommitted c = false → cl.contributions i c ≤ 1) := by
  have hinv := inv_run hrun
  have hnode := hinv.nodes i
  refine ⟨fun e he => hinv.mem_localEvents he, hnode.stored, fun c w hw => ?_⟩
  have hfallback := hnode.fallback_imp hw
  have hcommitted := hnode.committed_imp (c := c)
  refine ⟨fun r => hnode.contributionsBy_le_one r c, fun hone => hfallback (by omega), ?_⟩
  intro hcond
  have h₁ := hnode.contributionsBy_le_one .committed c
  have h₂ := hnode.contributionsBy_le_one .fallback c
  rw [contributions]
  -- both routes together need a failed call on this node whose entry is committed
  by_cases hzero : cl.contributionsBy .fallback i c = 0
  · omega
  · obtain ⟨hown, hfailed⟩ := hfallback hzero
    rcases hcond with hother | hok | hnot
    · exact absurd hown hother
    · exact absurd hfailed hok
    · have : cl.contributionsBy .committed i c = 0 := by
        by_contra hpos
        rw [hcommitted hpos] at hnot
        cases hnot
      omega

/-! ## Calls that fail -/

/-- An event without a key, appended on the first of two nodes. -/
def fallbackAppend (task : Task) : LocalAppend := ⟨some 0, .fallback, nodeJoined 1 none, task⟩

/-- The callback fails, and the fallback stores the event. -/
def failedCall : List (ClusterAct 2) :=
  [.call 0 (nodeJoined 1 none), .reply 0 (.error "timeout"), .step 0 0, .step 0 0, .step 0 0,
    .step 0 0, .step 0 0, .step 0 0]

/-- The callback fails although Raft commits the entry. -/
def failedYetCommitted : List (ClusterAct 2) :=
  [.call 0 (nodeJoined 1 none), .commit ⟨⟨1, 2⟩, 1⟩ 0, .reply 0 (.error "timeout")]

/-- The sections of both appends on the first node, one append after the other. -/
def bothAppends : List ℕ := [0, 0, 0, 0, 0, 0, 1, 1, 1, 1, 1, 1]

/-- The appends on a node run as a pool of their own. -/
theorem runSteps_step (cl : Cluster n) (i : Fin n) (ks : List ℕ) :
    runSteps (Cluster.next J) cl (ks.map (.step i)) =
      (runSteps (Pool.next id (LocalAppend.step J)) (cl.nodes i).pool (ks.map .step)).map
        fun pool => cl.setNode i { cl.nodes i with pool } := by
  induction ks generalizing cl with
  | nil =>
    show some cl = some (Cluster.mk cl.calls cl.committed (Function.update cl.nodes i (cl.nodes i)))
    rw [Function.update_eq_self]
  | cons k ks ih =>
    rw [List.map_cons, List.map_cons, runSteps_cons, runSteps_cons, Cluster.next]
    cases Pool.next id (LocalAppend.step J) (cl.nodes i).pool (.step k) with
    | none => rfl
    | some pool =>
      simp only [Option.bind_some, ih, setNode_nodes_self]
      simp only [setNode, Function.update_idem]

/-- A node that has applied nothing starts one append for the entry of a call. -/
theorem next_apply {event : EventEnvelope} {json : String}
    {pool : Pool PersistentEventLog LocalAppend}
    (hnode : cl.nodes i = ⟨SledStateMachine.new, 0, pool⟩) (he : cl.committed[0]? = some e)
    (hcall : e.call = some c) (hjson : J.toString event = .ok json)
    (hentry : e.entry.eventJson = some json) :
    ∃ machine, cl.next J (.apply i) = some ((cl.setNode i ⟨machine, 1, pool⟩).spawn i
      [⟨some c, .committed, event, .checkKey event⟩]) := by
  obtain ⟨tree, happly, -⟩ := represents_new.apply [e.entry]
  have happly' : SledStateMachine.new.apply [e.entry] = .ok (_, _, ⟨tree⟩) := happly
  refine ⟨⟨tree⟩, ?_⟩
  simp only [Cluster.next, hnode, he, happly']
  rw [SledStateMachine.apply_delivered happly', applied_eq hcall hjson hentry]

/-- The event of the failed call is in the log of the first node, once, and the second node has
none. -/
theorem localEvents_failedCall :
    ∃ cl, runSteps (Cluster.next sampleCodec) (new fun _ => "events.jsonl") failedCall = some cl ∧
      cl.localEvents 0 = [nodeJoined 1 none] ∧ cl.contributions 0 0 ≤ 1 ∧
      cl.contributions 1 0 ≤ 1 := by
  refine ⟨_, rfl, rfl, ?_, ?_⟩
  · exact ((localEvents_stem_from_calls sampleCodec _ failedCall _ rfl 0).2.2 0 _ rfl).2.2
      (Or.inr (Or.inr rfl))
  · exact ((localEvents_stem_from_calls sampleCodec _ failedCall _ rfl 1).2.2 0 _ rfl).2.2
      (Or.inl (by decide))

/-- A failed call leaves an event in a local log that is not committed; and one whose entry is
committed nevertheless contributes its event twice. -/
theorem failed_calls_disagree :
    (∃ cl, runSteps (Cluster.next sampleCodec) (new fun _ => "events.jsonl") failedCall = some cl ∧
      nodeJoined 1 none ∈ cl.localEvents 0 ∧
      committedEvents sampleCodec (cl.committed.map CommittedEntry.entry) = []) ∧
    ∃ cl, runSteps (Cluster.next sampleCodec) (new fun _ => "events.jsonl")
        (failedYetCommitted ++ .apply 0 :: bothAppends.map (.step 0)) = some cl ∧
      cl.contributions 0 0 = 2 ∧ cl.localEvents 0 = [nodeJoined 1 none, nodeJoined 1 none] := by
  refine ⟨⟨_, rfl, List.mem_singleton_self _, rfl⟩, ?_⟩
  obtain ⟨cl, hrun, hnode, e, he, hcall, hentry⟩ : ∃ cl : Cluster 2,
      runSteps (Cluster.next sampleCodec) (new fun _ => "events.jsonl") failedYetCommitted =
        some cl ∧
      cl.nodes 0 = ⟨SledStateMachine.new, 0, ⟨PersistentEventLog.fresh "events.jsonl",
        [fallbackAppend (.checkKey (nodeJoined 1 none))]⟩⟩ ∧
      ∃ e, cl.committed[0]? = some e ∧ e.call = some 0 ∧
        e.entry.eventJson = some (sampleCodec.text (nodeJoined 1 none)) :=
    ⟨_, rfl, rfl, _, rfl, rfl, rfl⟩
  have hjson : sampleCodec.toString (nodeJoined 1 none) =
      .ok (sampleCodec.text (nodeJoined 1 none)) := JsonCodec.Writes.toString_eq ⟨_, rfl⟩
  obtain ⟨machine, hnext⟩ := next_apply hnode he hcall hjson hentry
  obtain ⟨pool, hpool, hcount, hevents⟩ : ∃ pool : Pool PersistentEventLog LocalAppend,
      runSteps (Pool.next id (LocalAppend.step sampleCodec))
        ⟨PersistentEventLog.fresh "events.jsonl",
          [fallbackAppend (.checkKey (nodeJoined 1 none)),
            ⟨some 0, .committed, nodeJoined 1 none, .checkKey (nodeJoined 1 none)⟩]⟩
        (bothAppends.map .step) = some pool ∧
      pool.tasks.countP (LocalAppend.storesFor 0 .committed) +
        pool.tasks.countP (LocalAppend.storesFor 0 .fallback) = 2 ∧
      pool.shared.inner.events = [nodeJoined 1 none, nodeJoined 1 none] := ⟨_, rfl, rfl, rfl⟩
  rw [runSteps_append, hrun, Option.bind_some, runSteps_cons, hnext, Option.bind_some,
    runSteps_step, spawn, setNode_nodes_self, setNode_nodes_self]
  refine ⟨_, congrArg (Option.map _) hpool, ?_, ?_⟩
  · rw [contributions, contributionsBy, contributionsBy, setNode_nodes_self]
    exact hcount
  · rw [localEvents, setNode_nodes_self]
    exact hevents

end Cluster

end Picloud
