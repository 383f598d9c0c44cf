import Picloud.Events.Concurrent
import Picloud.Raft.StateMachine

/-!
# Replication through the apply callback

Reference: `apply_cb` in `src/main.rs`.

The state machine hands each committed event to the apply callback in commit order, but the callback
only spawns a task that appends the event to the local log, and the tasks interleave. Finishing the
tasks in the order in which they were spawned is what appending in commit order would lead to; a
section of a later task changes that when it stores its event before an earlier task has stored its
own, or when it passes its key check before an earlier task with the same key is done.
-/

namespace Picloud

open Lib

/-! ## The node -/

/-- `apply_cb`: spawn an append for an event; a text that is no event is only logged. -/
def applyCb (J : JsonCodec EventEnvelope) (json : String) : List Task :=
  match J.fromStr json with
  | .ok envelope => [.checkKey envelope]
  | .error _ => []

/-- A node: its state machine, and its event log with the tasks that append to it. -/
structure ReplicaNode where
  machine : SledStateMachine
  pool : Pool PersistentEventLog Task

/-- The state machine applies a batch, or a spawned task executes its next section. -/
inductive ReplicaAct where
  | apply (entries : List Entry)
  | step (i : ℕ)
deriving DecidableEq

/-- One action on a node. A task may start before the batch is applied to its end, but spawning does
not touch the log, so this is one of the schedules in which it starts afterwards. -/
def ReplicaNode.next (J : JsonCodec EventEnvelope) (node : ReplicaNode) :
    ReplicaAct → Option ReplicaNode
  | .apply entries =>
    match node.machine.apply entries with
    | .error _ => none
    | .ok (_, delivered, machine) =>
      some ⟨machine, ⟨node.pool.shared, node.pool.tasks ++ delivered.flatMap (applyCb J)⟩⟩
  | .step i =>
    match PersistentEventLog.logNext J node.pool (.step i) with
    | some pool => some ⟨node.machine, pool⟩
    | none => none

/-- The entries that a schedule passes to the state machine. -/
def appliedEntries (acts : List ReplicaAct) : List Entry :=
  acts.flatMap fun
    | .apply entries => entries
    | .step _ => []

/-- The events of committed entries, in commit order. -/
def committedEvents (J : JsonCodec EventEnvelope) (entries : List Entry) : List EventEnvelope :=
  (eventTexts entries).flatMap fun json => (J.fromStr json).toOption.toList

/-- Appending events one after another. -/
def appendAll (log : InMemoryEventLog) (events : List EventEnvelope) : InMemoryEventLog :=
  events.foldl InMemoryEventLog.append log

/-! ## What tasks still have to do -/

/-- The event of an append that has not ended. -/
def Task.event : Task → Option EventEnvelope
  | .checkKey e | .writeFile e _ => some e
  | .inner (.check e) | .inner (.record e) | .inner (.send e) | .inner (.push e) => some e
  | _ => none

/-- The key of an append that has not ended. -/
def Task.key (t : Task) : Option String := t.event.bind EventEnvelope.idempotencyKey

/-- The key of an append that has passed the second key check. -/
def Task.passedKey : Task → Option String
  | .inner (.record e) | .inner (.send e) | .inner (.push e) => e.idempotencyKey
  | _ => none

/-- The in-memory log after the rest of an append, undisturbed. -/
def Task.store (log : InMemoryEventLog) : Task → InMemoryEventLog
  | .checkKey e | .writeFile e _ => log.append e
  | .inner t => PersistentEventLog.memFinish log t
  | _ => log

/-- The in-memory log after the tasks, one after another. -/
def storeAll (log : InMemoryEventLog) (tasks : List Task) : InMemoryEventLog :=
  tasks.foldl Task.store log

/-- The task is an append of an event that can be serialised. -/
def Task.Appends (J : JsonCodec EventEnvelope) : Task → Prop
  | .checkKey e => J.Writes e
  | .writeFile _ _ | .inner _ | .done _ => True
  | .readLen _ | .drain _ | .advance _ _ | .rewrite _ => False

theorem Task.store_of_finished {t : Task} (h : t.finished = true) (log : InMemoryEventLog) :
    t.store log = log := by
  unfold Task.finished at h
  split at h
  · rfl
  · rfl
  · cases h

theorem storeAll_of_finished {tasks : List Task} (h : ∀ t ∈ tasks, t.finished = true)
    (log : InMemoryEventLog) : storeAll log tasks = log := by
  induction tasks generalizing log with
  | nil => rfl
  | cons t ts ih =>
    show storeAll (t.store log) ts = log
    rw [Task.store_of_finished (h t List.mem_cons_self),
      ih fun u hu => h u (List.mem_cons_of_mem t hu)]

/-! ## Logs that store the same -/

/-- The same events and the same seen keys. -/
structure SameStore (m m' : InMemoryEventLog) : Prop where
  events : m.events = m'.events
  seen : ∀ k, k ∈ m.seenKeys ↔ k ∈ m'.seenKeys

namespace SameStore

variable {m m' m'' : InMemoryEventLog}

theorem refl (m : InMemoryEventLog) : SameStore m m := ⟨rfl, fun _ => Iff.rfl⟩

theorem symm (h : SameStore m m') : SameStore m' m := ⟨h.events.symm, fun k => (h.seen k).symm⟩

theorem trans (h : SameStore m m') (h' : SameStore m' m'') : SameStore m m'' :=
  ⟨h.events.trans h'.events, fun k => (h.seen k).trans (h'.seen k)⟩

theorem isDuplicate (h : SameStore m m') (e : EventEnvelope) :
    m.isDuplicate e = m'.isDuplicate e := by
  rw [Bool.eq_iff_iff, InMemoryEventLog.isDuplicate_eq_true_iff,
    InMemoryEventLog.isDuplicate_eq_true_iff]
  simp only [h.seen]

theorem recordKey (h : SameStore m m') (e : EventEnvelope) :
    SameStore (m.recordKey e) (m'.recordKey e) := by
  refine ⟨by simpa using h.events, fun k => ?_⟩
  rw [InMemoryEventLog.mem_recordKey_seenKeys, InMemoryEventLog.mem_recordKey_seenKeys, h.seen]

theorem send (m : InMemoryEventLog) (e : EventEnvelope) : SameStore (m.send e) m :=
  ⟨rfl, fun _ => Iff.rfl⟩

theorem push (h : SameStore m m') (e : EventEnvelope) : SameStore (m.push e) (m'.push e) :=
  ⟨by simp [h.events], fun k => h.seen k⟩

theorem sendPush (h : SameStore m m') (e : EventEnvelope) :
    SameStore ((m.send e).push e) ((m'.send e).push e) :=
  ((send m e).trans (h.trans (send m' e).symm)).push e

theorem append (h : SameStore m m') (e : EventEnvelope) : SameStore (m.append e) (m'.append e) := by
  rw [InMemoryEventLog.append, InMemoryEventLog.append, h.isDuplicate]
  split_ifs
  · exact h
  · exact (h.recordKey e).sendPush e

theorem store (h : SameStore m m') (t : Task) : SameStore (t.store m) (t.store m') := by
  cases t with
  | checkKey e => exact h.append e
  | writeFile e s => exact h.append e
  | inner t =>
    cases t with
    | check e => exact h.append e
    | record e => exact (h.recordKey e).sendPush e
    | send e => exact h.sendPush e
    | push e => exact h.push e
    | done o => exact h
  | readLen n => exact h
  | drain n => exact h
  | advance n r => exact h
  | rewrite r => exact h
  | done o => exact h

theorem storeAll (h : SameStore m m') (tasks : List Task) :
    SameStore (storeAll m tasks) (storeAll m' tasks) := by
  induction tasks generalizing m m' with
  | nil => exact h
  | cons t ts ih => exact ih (h.store t)

end SameStore

/-! ## Seen keys -/

variable {e : EventEnvelope} {m : InMemoryEventLog}

theorem mem_append_seenKeys {k : String} :
    k ∈ (m.append e).seenKeys ↔ k ∈ m.seenKeys ∨ e.idempotencyKey = some k := by
  rw [InMemoryEventLog.append]
  split_ifs with hdup
  · obtain ⟨k', hk', hmem⟩ := InMemoryEventLog.isDuplicate_eq_true_iff.mp hdup
    constructor
    · exact Or.inl
    · rintro (h | h)
      · exact h
      · rw [h] at hk'
        exact Option.some.inj hk' ▸ hmem
  · exact InMemoryEventLog.mem_recordKey_seenKeys

/-- A task adds at most its own key. -/
theorem Task.mem_store_seenKeys (t : Task) (m : InMemoryEventLog) (k : String) :
    (k ∈ m.seenKeys → k ∈ (t.store m).seenKeys) ∧
      (k ∈ (t.store m).seenKeys → k ∈ m.seenKeys ∨ t.key = some k) := by
  have happend : ∀ e : EventEnvelope, (k ∈ m.seenKeys → k ∈ (m.append e).seenKeys) ∧
      (k ∈ (m.append e).seenKeys → k ∈ m.seenKeys ∨ e.idempotencyKey = some k) :=
    fun e => ⟨fun h => mem_append_seenKeys.mpr (Or.inl h), mem_append_seenKeys.mp⟩
  cases t with
  | checkKey e => exact happend e
  | writeFile e s => exact happend e
  | inner t =>
    cases t with
    | check e => exact happend e
    | record e =>
      exact ⟨fun h => InMemoryEventLog.mem_recordKey_seenKeys.mpr (Or.inl h),
        InMemoryEventLog.mem_recordKey_seenKeys.mp⟩
    | send e => exact ⟨id, Or.inl⟩
    | push e => exact ⟨id, Or.inl⟩
    | done o => exact ⟨id, Or.inl⟩
  | readLen n => exact ⟨id, Or.inl⟩
  | drain n => exact ⟨id, Or.inl⟩
  | advance n r => exact ⟨id, Or.inl⟩
  | rewrite r => exact ⟨id, Or.inl⟩
  | done o => exact ⟨id, Or.inl⟩

theorem mem_storeAll_seenKeys (tasks : List Task) (m : InMemoryEventLog) (k : String) :
    (k ∈ m.seenKeys → k ∈ (storeAll m tasks).seenKeys) ∧
      (k ∈ (storeAll m tasks).seenKeys → k ∈ m.seenKeys ∨ ∃ t ∈ tasks, t.key = some k) := by
  induction tasks generalizing m with
  | nil => exact ⟨id, Or.inl⟩
  | cons t ts ih =>
    obtain ⟨hmono, hnew⟩ := ih (t.store m)
    obtain ⟨hmono₁, hnew₁⟩ := t.mem_store_seenKeys m k
    refine ⟨fun h => hmono (hmono₁ h), fun h => ?_⟩
    rcases hnew h with h | ⟨u, hu, huk⟩
    · rcases hnew₁ h with h | h
      · exact Or.inl h
      · exact Or.inr ⟨t, List.mem_cons_self, h⟩
    · exact Or.inr ⟨u, List.mem_cons_of_mem t hu, huk⟩

/-- A key that is seen now is seen when the earlier tasks are done. -/
theorem isDuplicate_storeAll (h : m.isDuplicate e = true) (tasks : List Task) :
    (storeAll m tasks).isDuplicate e = true := by
  obtain ⟨k, hk, hmem⟩ := InMemoryEventLog.isDuplicate_eq_true_iff.mp h
  exact InMemoryEventLog.isDuplicate_eq_true_iff.mpr
    ⟨k, hk, (mem_storeAll_seenKeys tasks m k).1 hmem⟩

/-- A key that is not seen now and that no earlier task has is not seen when these are done. -/
theorem not_isDuplicate_storeAll {tasks : List Task} (h : m.isDuplicate e = false)
    (hkeys : ∀ u ∈ tasks, ∀ k, e.idempotencyKey = some k → u.key ≠ some k) :
    (storeAll m tasks).isDuplicate e = false := by
  rw [InMemoryEventLog.isDuplicate_eq_false_iff] at h ⊢
  intro k hk hmem
  rcases (mem_storeAll_seenKeys tasks m k).2 hmem with hmem | ⟨u, hu, huk⟩
  · exact h k hk hmem
  · exact hkeys u hu k hk huk

/-! ## Inserting a key early -/

theorem append_recordKey (m : InMemoryEventLog) {e' : EventEnvelope}
    (hne : ∀ k, e.idempotencyKey = some k → e'.idempotencyKey ≠ some k) :
    SameStore ((m.recordKey e).append e') ((m.append e').recordKey e) := by
  have hdup : (m.recordKey e).isDuplicate e' = m.isDuplicate e' := by
    rw [Bool.eq_iff_iff, InMemoryEventLog.isDuplicate_eq_true_iff,
      InMemoryEventLog.isDuplicate_eq_true_iff]
    constructor
    · rintro ⟨k, hk, hmem⟩
      rcases InMemoryEventLog.mem_recordKey_seenKeys.mp hmem with hmem | hmem
      · exact ⟨k, hk, hmem⟩
      · exact absurd hk (hne k hmem)
    · rintro ⟨k, hk, hmem⟩
      exact ⟨k, hk, InMemoryEventLog.mem_recordKey_seenKeys.mpr (Or.inl hmem)⟩
  refine ⟨?_, fun k => ?_⟩
  · rw [InMemoryEventLog.append, hdup, InMemoryEventLog.append]
    split_ifs <;> simp
  · rw [mem_append_seenKeys, InMemoryEventLog.mem_recordKey_seenKeys,
      InMemoryEventLog.mem_recordKey_seenKeys, mem_append_seenKeys]
    exact or_right_comm

/-- A task does the same whether another key is inserted before or after it. -/
theorem Task.store_recordKey (t : Task) (m : InMemoryEventLog)
    (hne : ∀ k, e.idempotencyKey = some k → t.key ≠ some k) :
    SameStore (t.store (m.recordKey e)) ((t.store m).recordKey e) := by
  have hpush : ∀ e', SameStore ((m.recordKey e).push e') ((m.push e').recordKey e) := by
    refine fun e' => ⟨by simp, fun k => ?_⟩
    rw [InMemoryEventLog.push_seenKeys, InMemoryEventLog.mem_recordKey_seenKeys,
      InMemoryEventLog.mem_recordKey_seenKeys, InMemoryEventLog.push_seenKeys]
  cases t with
  | checkKey e' => exact append_recordKey m hne
  | writeFile e' s => exact append_recordKey m hne
  | inner t =>
    cases t with
    | check e' => exact append_recordKey m hne
    | record e' =>
      refine ⟨by simp [Task.store, PersistentEventLog.memFinish], fun k => ?_⟩
      simp only [Task.store, PersistentEventLog.memFinish, InMemoryEventLog.push_seenKeys,
        InMemoryEventLog.send_seenKeys, InMemoryEventLog.mem_recordKey_seenKeys]
      exact or_right_comm
    | send e' =>
      refine ⟨by simp [Task.store, PersistentEventLog.memFinish], fun k => ?_⟩
      simp only [Task.store, PersistentEventLog.memFinish, InMemoryEventLog.push_seenKeys,
        InMemoryEventLog.send_seenKeys, InMemoryEventLog.mem_recordKey_seenKeys]
    | push e' => exact hpush e'
    | done o => exact SameStore.refl _
  | readLen n => exact SameStore.refl _
  | drain n => exact SameStore.refl _
  | advance n r => exact SameStore.refl _
  | rewrite r => exact SameStore.refl _
  | done o => exact SameStore.refl _

theorem storeAll_recordKey (tasks : List Task) (m : InMemoryEventLog)
    (hne : ∀ u ∈ tasks, ∀ k, e.idempotencyKey = some k → u.key ≠ some k) :
    SameStore (storeAll (m.recordKey e) tasks) ((storeAll m tasks).recordKey e) := by
  induction tasks generalizing m with
  | nil => exact SameStore.refl _
  | cons t ts ih =>
    have hhead := (t.store_recordKey m (hne t List.mem_cons_self)).storeAll ts
    exact hhead.trans (ih (t.store m) fun u hu => hne u (List.mem_cons_of_mem t hu))

/-! ## One section -/

/-- The section keeps the order of the tasks spawned earlier: it does not pass the second key check
with a key that an earlier task has yet to deal with, and it stores its event once they have
ended. -/
def KeepsOrder (log : PersistentEventLog) (earlier : List Task) : Task → Prop
  | .inner (.check e) => log.inner.isDuplicate e = true ∨
      ∀ u ∈ earlier, ∀ k, e.idempotencyKey = some k → u.key ≠ some k
  | .inner (.push _) => ∀ u ∈ earlier, u.finished = true
  | _ => True

section

variable {J : JsonCodec EventEnvelope} {log log' : PersistentEventLog} {t t' : Task}
  {earlier : List Task}

theorem append_of_isDuplicate {m : InMemoryEventLog} {e : EventEnvelope}
    (h : m.isDuplicate e = true) : m.append e = m := by
  rw [InMemoryEventLog.append, if_pos h]

/-- The step lemma: after a section that keeps the order, finishing the earlier tasks and then this
one stores the same as before. -/
theorem sameStore_logStep (hstep : PersistentEventLog.logStep J log t = some (log', t'))
    (happ : t.Appends J)
    (hpassed : ∀ u ∈ earlier, ∀ k, t.passedKey = some k → u.key ≠ some k)
    (hkeep : KeepsOrder log earlier t) :
    SameStore (t'.store (storeAll log'.inner earlier)) (t.store (storeAll log.inner earlier)) := by
  cases PersistentEventLog.section_of_logStep hstep with
  | @keySeen e hdup =>
    show SameStore (storeAll log.inner earlier) ((storeAll log.inner earlier).append e)
    rw [append_of_isDuplicate (isDuplicate_storeAll hdup earlier)]
    exact SameStore.refl _
  | unwritable hdup htext =>
    obtain ⟨text, hok⟩ := happ
    rw [htext] at hok
    cases hok
  | serialised hdup htext => exact SameStore.refl _
  | lineWritten => exact SameStore.refl _
  | @keySeenInside e hdup =>
    show SameStore (storeAll log.inner earlier) ((storeAll log.inner earlier).append e)
    rw [append_of_isDuplicate (isDuplicate_storeAll hdup earlier)]
    exact SameStore.refl _
  | @keyFree e hdup =>
    show SameStore _ ((storeAll log.inner earlier).append e)
    rcases hkeep with hd | hkeys
    · rw [hdup] at hd
      cases hd
    · rw [InMemoryEventLog.append, not_isDuplicate_storeAll hdup hkeys]
      exact SameStore.refl _
  | @keyRecorded e =>
    -- no earlier task has the key, so it may as well be inserted after them
    exact (storeAll_recordKey earlier log.inner hpassed).sendPush e
  | @sent e =>
    have hsend := (SameStore.send log.inner e).storeAll earlier
    exact (hsend.trans (SameStore.send _ e).symm).push e
  | @pushed e =>
    -- the earlier tasks have ended and store nothing any more
    show SameStore (storeAll (log.inner.push e) earlier) ((storeAll log.inner earlier).push e)
    rw [storeAll_of_finished hkeep, storeAll_of_finished hkeep]
    exact SameStore.refl _
  | _ => cases happ

/-- What a section of an append leaves of its task: still an append, with the same key or none. -/
theorem logStep_appends (hstep : PersistentEventLog.logStep J log t = some (log', t'))
    (happ : t.Appends J) :
    t'.Appends J ∧ (∀ k, t'.key = some k → t.key = some k) ∧
      (∀ k, t'.passedKey = some k → t.passedKey = some k ∨
        ∃ e, t = .inner (.check e) ∧ e.idempotencyKey = some k ∧
          log.inner.isDuplicate e = false) := by
  cases PersistentEventLog.section_of_logStep hstep with
  | serialised hdup htext => exact ⟨trivial, fun k hk => hk, (fun _ hk => nomatch hk)⟩
  | lineWritten => exact ⟨trivial, fun k hk => hk, (fun _ hk => nomatch hk)⟩
  | @keyFree e hdup => exact ⟨trivial, fun k hk => hk, fun k hk => Or.inr ⟨e, rfl, hk, hdup⟩⟩
  | keyRecorded => exact ⟨trivial, fun k hk => hk, fun k hk => Or.inl hk⟩
  | sent => exact ⟨trivial, fun k hk => hk, fun k hk => Or.inl hk⟩
  | refused hbad => cases happ
  | admitted hgood => cases happ
  | overdrawn hlen => cases happ
  | drained hlen => cases happ
  | advanced => cases happ
  | rewritten => cases happ
  -- the append has ended
  | _ => exact ⟨trivial, (fun _ hk => nomatch hk), (fun _ hk => nomatch hk)⟩

end

/-! ## Runs -/

/-- Every section keeps the order of the tasks spawned earlier. -/
def ReplicaNode.StoresInOrder (node : ReplicaNode) : ReplicaAct → Prop
  | .apply _ => True
  | .step i => ∀ t, node.pool.tasks[i]? = some t →
      KeepsOrder node.pool.shared (node.pool.tasks.take i) t

/-- The invariant: finishing the tasks in the order in which they were spawned stores what `m`
stores, and no task has passed its key check before an earlier task with the same key has ended. -/
structure FollowsCommits (J : JsonCodec EventEnvelope) (pool : Pool PersistentEventLog Task)
    (m : InMemoryEventLog) : Prop where
  appends : ∀ t ∈ pool.tasks, t.Appends J
  keys : pool.tasks.Pairwise fun u t => ∀ k, t.passedKey = some k → u.key ≠ some k
  store : SameStore (storeAll pool.shared.inner pool.tasks) m

section

variable {J : JsonCodec EventEnvelope} {pool pool' : Pool PersistentEventLog Task}
  {m : InMemoryEventLog}

theorem FollowsCommits.step (h : FollowsCommits J pool m) {i : ℕ}
    (hkeep : ∀ t, pool.tasks[i]? = some t → KeepsOrder pool.shared (pool.tasks.take i) t)
    (hstep : PersistentEventLog.logNext J pool (.step i) = some pool') :
    FollowsCommits J pool' m := by
  obtain ⟨c, hc, -⟩ | ⟨i', t, log', t', hi, ht, hlog, rfl⟩ := Pool.next_cases hstep
  · cases hc
  obtain rfl : i = i' := Pool.Act.step.inj hi
  -- the tasks before the one that goes, the one that goes, and those after it
  obtain ⟨hsplit, hset⟩ := Pool.split_at ht
  have happ : t.Appends J := h.appends t (List.mem_of_getElem? ht)
  obtain ⟨happ', hkey', hpassed'⟩ := logStep_appends hlog happ
  have hpair := h.keys
  rw [hsplit, List.pairwise_append, List.pairwise_cons] at hpair
  obtain ⟨hearlier, ⟨hlater, hrest⟩, hcross⟩ := hpair
  have hpassed : ∀ u ∈ pool.tasks.take i, ∀ k, t.passedKey = some k → u.key ≠ some k :=
    fun u hu => hcross u hu t List.mem_cons_self
  refine ⟨?_, ?_, ?_⟩
  · intro u hu
    rcases Pool.mem_set_imp hu with rfl | hu
    · exact happ'
    · exact h.appends u hu
  · rw [hset, List.pairwise_append, List.pairwise_cons]
    refine ⟨hearlier, ⟨?_, hrest⟩, ?_⟩
    · intro w hw k hk hkey
      exact hlater w hw k hk (hkey' k hkey)
    · intro u hu w hw
      rcases List.mem_cons.mp hw with rfl | hw
      · intro k hk
        rcases hpassed' k hk with hk | ⟨e, rfl, hek, hdup⟩
        · exact hpassed u hu k hk
        · rcases hkeep _ ht with hd | hfree
          · rw [hdup] at hd
            cases hd
          · exact hfree u hu k hek
      · exact hcross u hu w (List.mem_cons_of_mem t hw)
  · have hone := sameStore_logStep hlog happ hpassed (hkeep t ht)
    have hold := h.store
    rw [hsplit] at hold
    rw [hset]
    simp only [storeAll, List.foldl_append, List.foldl_cons] at hone hold ⊢
    exact (hone.storeAll _).trans hold

theorem FollowsCommits.spawn (h : FollowsCommits J pool m) (texts : List String) :
    FollowsCommits J ⟨pool.shared, pool.tasks ++ texts.flatMap (applyCb J)⟩
      (appendAll m (texts.flatMap fun json => (J.fromStr json).toOption.toList)) := by
  induction texts generalizing pool m with
  | nil => simpa [appendAll] using h
  | cons json texts ih =>
    cases hjson : J.fromStr json with
    | error s =>
      have hnone : applyCb J json = [] := by rw [applyCb, hjson]
      simpa only [List.flatMap_cons, hnone, hjson, Except.toOption, Option.toList,
        List.nil_append] using ih h
    | ok e =>
      -- the new task is the last one, and to finish it is to append its event
      have hone : FollowsCommits J ⟨pool.shared, pool.tasks ++ [.checkKey e]⟩ (m.append e) := by
        refine ⟨?_, ?_, ?_⟩
        · intro t ht
          rcases List.mem_append.mp ht with ht | ht
          · exact h.appends t ht
          · rw [List.mem_singleton.mp ht]
            exact J.toString_of_fromStr hjson
        · refine List.pairwise_append.mpr ⟨h.keys, List.pairwise_singleton _ _, ?_⟩
          intro u _ w hw k hk
          rw [List.mem_singleton.mp hw] at hk
          cases hk
        · simp only [storeAll, List.foldl_append, List.foldl_cons, List.foldl_nil]
          exact h.store.append e
      have hspawn : applyCb J json = [.checkKey e] := by rw [applyCb, hjson]
      have hrest := ih hone
      simp only [List.append_assoc] at hrest
      simpa only [List.flatMap_cons, hspawn, hjson, Except.toOption, Option.toList,
        appendAll, List.foldl_append, List.foldl_cons, List.foldl_nil] using hrest

theorem committedEvents_append (J : JsonCodec EventEnvelope) (es fs : List Entry) :
    committedEvents J (es ++ fs) = committedEvents J es ++ committedEvents J fs := by
  rw [committedEvents, eventTexts_append, List.flatMap_append]
  rfl

/-- The run lemma: the tasks follow the commits. -/
theorem FollowsCommits.run {node node' : ReplicaNode} {acts : List ReplicaAct}
    (h : FollowsCommits J node.pool m)
    (hmeet : StepsMeet (ReplicaNode.next J) ReplicaNode.StoresInOrder node acts)
    (hrun : runSteps (ReplicaNode.next J) node acts = some node') :
    FollowsCommits J node'.pool (appendAll m (committedEvents J (appliedEntries acts))) := by
  induction acts generalizing node m with
  | nil =>
    rw [runSteps_nil, Option.some.injEq] at hrun
    exact hrun ▸ h
  | cons a acts ih =>
    rw [runSteps_cons, Option.bind_eq_some_iff] at hrun
    obtain ⟨node₁, hnext, hrun⟩ := hrun
    rw [StepsMeet, hnext] at hmeet
    obtain ⟨hkeep, hmeet⟩ := hmeet
    cases a with
    | apply entries =>
      rw [ReplicaNode.next] at hnext
      split at hnext
      · cases hnext
      · next r delivered machine happly =>
        cases hnext
        rw [SledStateMachine.apply_delivered happly] at hmeet hrun
        have hspawn := h.spawn (eventTexts entries)
        have hall := ih hspawn hmeet hrun
        rw [appliedEntries, List.flatMap_cons, committedEvents_append, appendAll,
          List.foldl_append]
        exact hall
    | step i =>
      rw [ReplicaNode.next] at hnext
      split at hnext
      · next pool hpool =>
        cases hnext
        exact ih (h.step hkeep hpool) hmeet hrun
      · cases hnext

end

/-- Events with fresh and distinct keys are all stored. -/
theorem appendAll_events (m : InMemoryEventLog) (es : List EventEnvelope)
    (hfresh : ∀ k ∈ es.filterMap EventEnvelope.idempotencyKey, k ∉ m.seenKeys)
    (hnodup : (es.filterMap EventEnvelope.idempotencyKey).Nodup) :
    (appendAll m es).events = m.events ++ es := by
  induction es generalizing m with
  | nil => simp [appendAll]
  | cons e es ih =>
    have hdup : m.isDuplicate e = false := by
      rw [InMemoryEventLog.isDuplicate_eq_false_iff]
      intro k hk
      exact hfresh k (by simp [hk])
    have hevents : (m.append e).events = m.events ++ [e] := by
      rw [InMemoryEventLog.append, hdup]
      simp
    show (appendAll (m.append e) es).events = _
    rw [ih (m.append e) ?_ ?_, hevents, List.append_assoc, List.singleton_append]
    · intro k hk hseen
      rcases mem_append_seenKeys.mp hseen with hseen | hek
      · refine hfresh k ?_ hseen
        obtain ⟨e', he', hek'⟩ := List.mem_filterMap.mp hk
        exact List.mem_filterMap.mpr ⟨e', List.mem_cons_of_mem e he', hek'⟩
      · rw [List.filterMap_cons, hek] at hnodup
        exact (List.nodup_cons.mp hnodup).1 hk
    · rw [List.filterMap_cons] at hnodup
      split at hnodup
      · exact hnodup
      · exact (List.nodup_cons.mp hnodup).2

/-- **Replicated log order.** Let a node apply committed entries in any batches and let the spawned
tasks interleave such that each keeps the order of those spawned earlier. Once all have ended, the
local log holds what appending the committed events one after another in commit order gives: all of
them, when their keys are new and distinct. Two nodes that start with the same log and apply the
same entries hold the same events. -/
theorem events_in_commit_order (J : JsonCodec EventEnvelope) (machine : SledStateMachine)
    (log₀ : PersistentEventLog) (acts : List ReplicaAct) (node : ReplicaNode)
    (hmeet : StepsMeet (ReplicaNode.next J) ReplicaNode.StoresInOrder ⟨machine, ⟨log₀, []⟩⟩ acts)
    (hrun : runSteps (ReplicaNode.next J) ⟨machine, ⟨log₀, []⟩⟩ acts = some node)
    (hquiet : ∀ t ∈ node.pool.tasks, t.finished = true) :
    node.pool.shared.inner.events =
      (appendAll log₀.inner (committedEvents J (appliedEntries acts))).events ∧
    ((∀ k ∈ (committedEvents J (appliedEntries acts)).filterMap EventEnvelope.idempotencyKey,
        k ∉ log₀.inner.seenKeys) →
      ((committedEvents J (appliedEntries acts)).filterMap
        EventEnvelope.idempotencyKey).Nodup →
      node.pool.shared.inner.events =
        log₀.inner.events ++ committedEvents J (appliedEntries acts)) ∧
    ∀ (machine' : SledStateMachine) (log₀' : PersistentEventLog) (acts' : List ReplicaAct)
      (node' : ReplicaNode), log₀'.inner = log₀.inner → appliedEntries acts' = appliedEntries acts →
      StepsMeet (ReplicaNode.next J) ReplicaNode.StoresInOrder ⟨machine', ⟨log₀', []⟩⟩ acts' →
      runSteps (ReplicaNode.next J) ⟨machine', ⟨log₀', []⟩⟩ acts' = some node' →
      (∀ t ∈ node'.pool.tasks, t.finished = true) →
      node'.pool.shared.inner.events = node.pool.shared.inner.events := by
  have hstored : ∀ (machine : SledStateMachine) (log₀ : PersistentEventLog)
      (acts : List ReplicaAct) (node : ReplicaNode),
      StepsMeet (ReplicaNode.next J) ReplicaNode.StoresInOrder ⟨machine, ⟨log₀, []⟩⟩ acts →
      runSteps (ReplicaNode.next J) ⟨machine, ⟨log₀, []⟩⟩ acts = some node →
      (∀ t ∈ node.pool.tasks, t.finished = true) →
      node.pool.shared.inner.events =
        (appendAll log₀.inner (committedEvents J (appliedEntries acts))).events := by
    intro machine log₀ acts node hmeet hrun hquiet
    have hstart : FollowsCommits J (ReplicaNode.mk machine ⟨log₀, []⟩).pool log₀.inner :=
      ⟨by simp, List.Pairwise.nil, SameStore.refl _⟩
    have hend := (hstart.run hmeet hrun).store
    rw [storeAll_of_finished hquiet] at hend
    exact hend.events
  have hevents := hstored machine log₀ acts node hmeet hrun hquiet
  refine ⟨hevents, ?_, ?_⟩
  · intro hfresh hnodup
    rw [hevents, appendAll_events _ _ hfresh hnodup]
  · intro machine' log₀' acts' node' hlog hacts hmeet' hrun' hquiet'
    rw [hstored machine' log₀' acts' node' hmeet' hrun' hquiet', hevents, hlog, hacts]

/-! ## Two committed events -/

/-- The entry that `write_cb` submits for an event. -/
def committedEntry (index : UInt64) (e : EventEnvelope) : Entry :=
  ⟨⟨⟨1, 1⟩, index⟩, .normal ⟨sampleCodec.text e⟩⟩

/-- Two events without a key, committed one after the other. -/
def twoCommitted : List Entry :=
  [committedEntry 1 (nodeJoined 1 none), committedEntry 2 (nodeJoined 2 none)]

/-- The log and its tasks once both are applied in one batch, before any task has started. -/
def twoSpawned : Pool PersistentEventLog Task :=
  ⟨PersistentEventLog.fresh "events.jsonl",
    [.checkKey (nodeJoined 1 none), .checkKey (nodeJoined 2 none)]⟩

theorem eventTexts_twoCommitted : eventTexts twoCommitted =
    [sampleCodec.text (nodeJoined 1 none), sampleCodec.text (nodeJoined 2 none)] := rfl

theorem fromStr_text_nodeJoined :
    sampleCodec.fromStr (sampleCodec.text (nodeJoined 1 none)) = .ok (nodeJoined 1 none) ∧
      sampleCodec.fromStr (sampleCodec.text (nodeJoined 2 none)) = .ok (nodeJoined 2 none) := by
  have h₁ : sampleCodec.Writes (nodeJoined 1 none) := ⟨_, rfl⟩
  have h₂ : sampleCodec.Writes (nodeJoined 2 none) := ⟨_, rfl⟩
  exact ⟨sampleCodec.fromStr_toString h₁.toString_eq, sampleCodec.fromStr_toString h₂.toString_eq⟩

theorem committedEvents_twoCommitted :
    committedEvents sampleCodec twoCommitted = [nodeJoined 1 none, nodeJoined 2 none] := by
  rw [committedEvents, eventTexts_twoCommitted, List.flatMap_cons, List.flatMap_cons,
    List.flatMap_nil, fromStr_text_nodeJoined.1, fromStr_text_nodeJoined.2]
  rfl

/-- The batch spawns both tasks; what follows goes on from there. -/
theorem runSteps_twoCommitted (acts : List ReplicaAct) :
    ∃ machine, ReplicaNode.next sampleCodec
        ⟨SledStateMachine.new, ⟨PersistentEventLog.fresh "events.jsonl", []⟩⟩
        (.apply twoCommitted) = some ⟨machine, twoSpawned⟩ ∧
      runSteps (ReplicaNode.next sampleCodec)
        ⟨SledStateMachine.new, ⟨PersistentEventLog.fresh "events.jsonl", []⟩⟩
        (.apply twoCommitted :: acts) =
      runSteps (ReplicaNode.next sampleCodec) ⟨machine, twoSpawned⟩ acts := by
  obtain ⟨tree, happly, -⟩ := represents_new.apply twoCommitted
  have happly' : SledStateMachine.new.apply twoCommitted = .ok (_, _, ⟨tree⟩) := happly
  have hnext : ReplicaNode.next sampleCodec
      ⟨SledStateMachine.new, ⟨PersistentEventLog.fresh "events.jsonl", []⟩⟩
      (.apply twoCommitted) = some ⟨⟨tree⟩, twoSpawned⟩ := by
    simp only [ReplicaNode.next, happly']
    rw [SledStateMachine.apply_delivered happly', eventTexts_twoCommitted, List.flatMap_cons,
      List.flatMap_cons, List.flatMap_nil, applyCb, applyCb, fromStr_text_nodeJoined.1,
      fromStr_text_nodeJoined.2]
    rfl
  refine ⟨⟨tree⟩, hnext, ?_⟩
  rw [runSteps_cons, hnext]
  rfl

/-- Between batches, the tasks run as calls on the log do. -/
theorem runSteps_step (J : JsonCodec EventEnvelope) (machine : SledStateMachine)
    (pool : Pool PersistentEventLog Task) (is : List ℕ) :
    runSteps (ReplicaNode.next J) ⟨machine, pool⟩ (is.map .step) =
      (runSteps (PersistentEventLog.logNext J) pool (is.map .step)).map (.mk machine) := by
  induction is generalizing pool with
  | nil => rfl
  | cons i is ih =>
    rw [List.map_cons, List.map_cons, runSteps_cons, runSteps_cons, ReplicaNode.next]
    cases PersistentEventLog.logNext J pool (.step i) with
    | none => rfl
    | some pool' => exact ih pool'

/-- The sections of the two tasks, alternating, the first task storing first. -/
def alternating : List ℕ := [0, 1, 0, 1, 1, 0, 1, 0, 1, 0, 0, 1]

/-- The second task goes first. -/
def secondFirst : List ℕ := [1, 1, 1, 1, 1, 1, 0, 0, 0, 0, 0, 0]

/-- Both events are in the log, in commit order. -/
theorem commit_order_alternating :
    ∃ node, runSteps (ReplicaNode.next sampleCodec)
        ⟨SledStateMachine.new, ⟨PersistentEventLog.fresh "events.jsonl", []⟩⟩
        (.apply twoCommitted :: alternating.map .step) = some node ∧
      node.pool.shared.inner.events = [nodeJoined 1 none, nodeJoined 2 none] := by
  obtain ⟨machine, hnext, hrun⟩ := runSteps_twoCommitted (alternating.map .step)
  have hstep : ∀ {node : ReplicaNode} {i : ℕ} {t : Task}, node.pool.tasks[i]? = some t →
      KeepsOrder node.pool.shared (node.pool.tasks.take i) t → node.StoresInOrder (.step i) := by
    intro node i t ht hkeep u hu
    rw [ht, Option.some.injEq] at hu
    exact hu ▸ hkeep
  have hmeet : StepsMeet (ReplicaNode.next sampleCodec) ReplicaNode.StoresInOrder
      ⟨SledStateMachine.new, ⟨PersistentEventLog.fresh "events.jsonl", []⟩⟩
      (.apply twoCommitted :: alternating.map .step) := by
    rw [StepsMeet, hnext]
    refine ⟨trivial, hstep rfl trivial, hstep rfl trivial, hstep rfl trivial, hstep rfl trivial,
      hstep rfl (Or.inr (fun _ _ _ hk => nomatch hk)),
      hstep rfl (Or.inr (fun _ _ _ hk => nomatch hk)),
      hstep rfl trivial, hstep rfl trivial, hstep rfl trivial, hstep rfl trivial,
      hstep rfl (fun _ hu => nomatch hu), hstep rfl ?_, trivial⟩
    intro u hu
    rw [List.mem_singleton.mp hu]
    rfl
  have hpool : ∃ pool, runSteps (PersistentEventLog.logNext sampleCodec) twoSpawned
      (alternating.map .step) = some pool ∧ ∀ t ∈ pool.tasks, t.finished = true :=
    ⟨_, rfl, by decide +kernel⟩
  obtain ⟨pool, hpool, hquiet⟩ := hpool
  rw [runSteps_step, hpool, Option.map_some] at hrun
  refine ⟨_, hrun, ?_⟩
  have hfresh := (events_in_commit_order sampleCodec _ _ _ _ hmeet hrun hquiet).2.1
  have happlied : appliedEntries (.apply twoCommitted :: alternating.map .step) = twoCommitted := by
    simp [appliedEntries, alternating]
  rw [happlied, committedEvents_twoCommitted] at hfresh
  exact hfresh (by decide) (by decide)

/-- When the second task overtakes the first, the log holds the events against commit order. -/
theorem commit_order_lost_secondFirst :
    ∃ node, runSteps (ReplicaNode.next sampleCodec)
        ⟨SledStateMachine.new, ⟨PersistentEventLog.fresh "events.jsonl", []⟩⟩
        (.apply twoCommitted :: secondFirst.map .step) = some node ∧
      (∀ t ∈ node.pool.tasks, t.finished = true) ∧
      committedEvents sampleCodec twoCommitted = [nodeJoined 1 none, nodeJoined 2 none] ∧
      node.pool.shared.inner.events = [nodeJoined 2 none, nodeJoined 1 none] := by
  have hpool : ∃ pool, runSteps (PersistentEventLog.logNext sampleCodec) twoSpawned
      (secondFirst.map .step) = some pool ∧ (∀ t ∈ pool.tasks, t.finished = true) ∧
      pool.shared.inner.events = [nodeJoined 2 none, nodeJoined 1 none] :=
    ⟨_, rfl, by decide +kernel, rfl⟩
  obtain ⟨machine, -, hrun⟩ := runSteps_twoCommitted (secondFirst.map .step)
  obtain ⟨pool, hpool, hquiet, hevents⟩ := hpool
  rw [runSteps_step, hpool, Option.map_some] at hrun
  exact ⟨_, hrun, hquiet, committedEvents_twoCommitted, hevents⟩

end Picloud
