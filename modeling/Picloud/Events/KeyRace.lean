import Picloud.Events.Concurrent

/-!
# Idempotency keys under concurrent appends

The look at `seen_keys` and the insertion of the key are separate sections, so two appends with one
key can both pass the look before either inserts. `KeyInv` counts the stored and sent events with a
key together with the tasks that are on their way to storing and sending one. It is kept by every
section but a look at a key that another task is about to insert.
-/

namespace Picloud

open Lib

/-- The event carries the key. -/
def EventEnvelope.hasKey (k : String) (e : EventEnvelope) : Bool := e.idempotencyKey == some k

theorem EventEnvelope.hasKey_iff {k : String} {e : EventEnvelope} :
    e.hasKey k = true ↔ e.idempotencyKey = some k := by
  simp [hasKey]

theorem countP_hasKey_singleton (k : String) (e : EventEnvelope) :
    [e].countP (EventEnvelope.hasKey k) = (e.hasKey k).toNat := by
  cases hk : e.hasKey k <;> simp [hk]

namespace MemTask

/-- The task has found the key unseen and is about to insert it. -/
def inserting (k : String) : MemTask → Bool
  | .record e => e.hasKey k
  | _ => false

/-- The task has inserted the key and is about to send its event. -/
def sending (k : String) : MemTask → Bool
  | .send e => e.hasKey k
  | _ => false

/-- The task has sent its event and is about to store it. -/
def storing (k : String) : MemTask → Bool
  | .push e => e.hasKey k
  | _ => false

end MemTask

/-- At most one event with the key is stored or about to be, at most one is sent or about to be,
and none before the key is inserted. -/
structure KeyInv (k : String) (log : InMemoryEventLog) (tasks : List MemTask) : Prop where
  stored : log.events.countP (EventEnvelope.hasKey k) + tasks.countP (MemTask.inserting k) +
    tasks.countP (MemTask.sending k) + tasks.countP (MemTask.storing k) ≤ 1
  sent : log.sent.countP (EventEnvelope.hasKey k) + tasks.countP (MemTask.inserting k) +
    tasks.countP (MemTask.sending k) ≤ 1
  unseen : k ∉ log.seenKeys → log.events.countP (EventEnvelope.hasKey k) = 0 ∧
    log.sent.countP (EventEnvelope.hasKey k) = 0 ∧
    tasks.countP (MemTask.sending k) = 0 ∧ tasks.countP (MemTask.storing k) = 0

/-- No idempotency key is carried by two stored events, or by two events sent to one subscriber. -/
def KeysOnce (log : InMemoryEventLog) : Prop :=
  (log.events.filterMap EventEnvelope.idempotencyKey).Nodup ∧
    ∀ r : Receiver, ((log.sentTo r).filterMap EventEnvelope.idempotencyKey).Nodup

theorem nodup_keys_of_countP {es : List EventEnvelope}
    (h : ∀ k, es.countP (EventEnvelope.hasKey k) ≤ 1) :
    (es.filterMap EventEnvelope.idempotencyKey).Nodup := by
  rw [List.nodup_iff_count_le_one]
  intro k
  rw [List.count_filterMap]
  exact h k

theorem keysOnce_of_keyInv {log : InMemoryEventLog} {tasks : List MemTask}
    (h : ∀ k, KeyInv k log tasks) : KeysOnce log := by
  refine ⟨nodup_keys_of_countP fun k => ?_, fun r => nodup_keys_of_countP fun k => ?_⟩
  · have := (h k).stored
    omega
  · -- a subscriber is sent a part of what is broadcast
    have hsub : (log.sentTo r).Sublist log.sent :=
      List.filter_sublist.trans (List.drop_sublist _ _)
    have hle : (log.sentTo r).countP (EventEnvelope.hasKey k) ≤
        log.sent.countP (EventEnvelope.hasKey k) := hsub.countP_le
    have := (h k).sent
    omega

/-! ## Sections of the in-memory append -/

/-- The next section is no look at an unseen key that another task is about to insert. -/
def NoInsertPending (log : InMemoryEventLog) (tasks : List MemTask) : MemTask → Prop
  | .check e => log.isDuplicate e = true ∨
      ∀ k, e.idempotencyKey = some k → tasks.countP (MemTask.inserting k) = 0
  | _ => True

/-- A task before its check or after its end counts for nothing. -/
def MemTask.outside (t : MemTask) : Prop :=
  ∀ k, t.inserting k = false ∧ t.sending k = false ∧ t.storing k = false

theorem MemTask.outside_check (e : EventEnvelope) : (MemTask.check e).outside :=
  fun _ => ⟨rfl, rfl, rfl⟩

theorem MemTask.outside_done (o : Outcome) : (MemTask.done o).outside :=
  fun _ => ⟨rfl, rfl, rfl⟩

section

variable {k : String} {log log' : InMemoryEventLog} {tasks : List MemTask} {i : ℕ} {t t' : MemTask}

theorem KeyInv.set_outside (h : KeyInv k log tasks) (ht : tasks[i]? = some t) (hout : t.outside)
    (hout' : t'.outside) : KeyInv k log (tasks.set i t') := by
  have hcount : ∀ q : MemTask → Bool, q t = false → q t' = false →
      (tasks.set i t').countP q = tasks.countP q := by
    intro q hq hq'
    simpa [hq, hq'] using Pool.countP_set_add ht t' q
  have hins := hcount (MemTask.inserting k) (hout k).1 (hout' k).1
  have hsend := hcount (MemTask.sending k) (hout k).2.1 (hout' k).2.1
  have hstore := hcount (MemTask.storing k) (hout k).2.2 (hout' k).2.2
  refine ⟨?_, ?_, ?_⟩
  · rw [hins, hsend, hstore]
    exact h.stored
  · rw [hins, hsend]
    exact h.sent
  · rw [hsend, hstore]
    exact h.unseen

theorem KeyInv.append_outside (h : KeyInv k log tasks) (hout : t.outside) :
    KeyInv k log (tasks ++ [t]) := by
  have hcount : ∀ q : MemTask → Bool, q t = false → (tasks ++ [t]).countP q = tasks.countP q := by
    intro q hq
    simp [hq]
  have hins := hcount (MemTask.inserting k) (hout k).1
  have hsend := hcount (MemTask.sending k) (hout k).2.1
  have hstore := hcount (MemTask.storing k) (hout k).2.2
  refine ⟨?_, ?_, ?_⟩
  · rw [hins, hsend, hstore]
    exact h.stored
  · rw [hins, hsend]
    exact h.sent
  · rw [hsend, hstore]
    exact h.unseen

/-- Compaction drops stored events. -/
theorem KeyInv.drop (h : KeyInv k log tasks) (n : ℕ) :
    KeyInv k { log with events := log.events.drop n } tasks := by
  have hle : (log.events.drop n).countP (EventEnvelope.hasKey k) ≤
      log.events.countP (EventEnvelope.hasKey k) := (List.drop_sublist n _).countP_le
  refine ⟨?_, h.sent, fun hk => ?_⟩
  · have := h.stored
    show (log.events.drop n).countP _ + _ + _ + _ ≤ 1
    omega
  · obtain ⟨hev, hrest⟩ := h.unseen hk
    refine ⟨?_, hrest⟩
    show (log.events.drop n).countP _ = 0
    omega

variable {e : EventEnvelope}

/-- A check that finds its key unseen, while no other task is about to insert it. -/
theorem KeyInv.check (h : KeyInv k log tasks) (ht : tasks[i]? = some (.check e))
    (hdup : log.isDuplicate e = false)
    (hfree : ∀ k, e.idempotencyKey = some k → tasks.countP (MemTask.inserting k) = 0) :
    KeyInv k log (tasks.set i (.record e)) := by
  have hins := Pool.countP_set_add ht (.record e) (MemTask.inserting k)
  have hsend := Pool.countP_set_add ht (.record e) (MemTask.sending k)
  have hstore := Pool.countP_set_add ht (.record e) (MemTask.storing k)
  simp only [MemTask.inserting, MemTask.sending, MemTask.storing,
    Bool.toNat_false] at hins hsend hstore
  have h1 := h.stored
  have h2 := h.sent
  -- only for the key of the event does a count change: its task is now about to insert it
  by_cases hk : e.hasKey k = true
  · have hkey := EventEnvelope.hasKey_iff.mp hk
    have hzero := h.unseen (InMemoryEventLog.isDuplicate_eq_false_iff.mp hdup k hkey)
    have hnone := hfree k hkey
    rw [hk, Bool.toNat_true] at hins
    refine ⟨?_, ?_, fun _ => ?_⟩ <;> omega
  · rw [Bool.not_eq_true] at hk
    rw [hk, Bool.toNat_false] at hins
    refine ⟨?_, ?_, fun hun => ?_⟩
    · omega
    · omega
    · have := h.unseen hun
      omega

theorem KeyInv.record (h : KeyInv k log tasks) (ht : tasks[i]? = some (.record e)) :
    KeyInv k (log.recordKey e) (tasks.set i (.send e)) := by
  have hins := Pool.countP_set_add ht (.send e) (MemTask.inserting k)
  have hsend := Pool.countP_set_add ht (.send e) (MemTask.sending k)
  have hstore := Pool.countP_set_add ht (.send e) (MemTask.storing k)
  simp only [MemTask.inserting, MemTask.sending, MemTask.storing,
    Bool.toNat_false] at hins hsend hstore
  have h1 := h.stored
  have h2 := h.sent
  refine ⟨?_, ?_, fun hun => ?_⟩
  · rw [InMemoryEventLog.recordKey_events]
    omega
  · rw [InMemoryEventLog.recordKey_sent]
    omega
  · -- the key is seen from now on, so an unseen key is another one
    rw [InMemoryEventLog.mem_recordKey_seenKeys, not_or] at hun
    have hk : e.hasKey k = false := by
      rw [← Bool.not_eq_true, EventEnvelope.hasKey_iff]
      exact hun.2
    have := h.unseen hun.1
    rw [InMemoryEventLog.recordKey_events, InMemoryEventLog.recordKey_sent]
    rw [hk, Bool.toNat_false] at hsend
    omega

theorem KeyInv.send (h : KeyInv k log tasks) (ht : tasks[i]? = some (.send e)) :
    KeyInv k (log.send e) (tasks.set i (.push e)) := by
  have hins := Pool.countP_set_add ht (.push e) (MemTask.inserting k)
  have hsend := Pool.countP_set_add ht (.push e) (MemTask.sending k)
  have hstore := Pool.countP_set_add ht (.push e) (MemTask.storing k)
  simp only [MemTask.inserting, MemTask.sending, MemTask.storing,
    Bool.toNat_false] at hins hsend hstore
  have hsent : (log.send e).sent.countP (EventEnvelope.hasKey k) =
      log.sent.countP (EventEnvelope.hasKey k) + (e.hasKey k).toNat := by
    rw [InMemoryEventLog.send_sent, List.countP_append, countP_hasKey_singleton]
  have h1 := h.stored
  have h2 := h.sent
  refine ⟨?_, ?_, fun hun => ?_⟩
  · rw [InMemoryEventLog.send_events]
    omega
  · omega
  · have := h.unseen hun
    rw [InMemoryEventLog.send_events]
    omega

theorem KeyInv.push (h : KeyInv k log tasks) {o : Outcome} (ht : tasks[i]? = some (.push e)) :
    KeyInv k (log.push e) (tasks.set i (.done o)) := by
  have hins := Pool.countP_set_add ht (.done o) (MemTask.inserting k)
  have hsend := Pool.countP_set_add ht (.done o) (MemTask.sending k)
  have hstore := Pool.countP_set_add ht (.done o) (MemTask.storing k)
  simp only [MemTask.inserting, MemTask.sending, MemTask.storing,
    Bool.toNat_false] at hins hsend hstore
  have hev : (log.push e).events.countP (EventEnvelope.hasKey k) =
      log.events.countP (EventEnvelope.hasKey k) + (e.hasKey k).toNat := by
    rw [InMemoryEventLog.push_events, List.countP_append, countP_hasKey_singleton]
  have h1 := h.stored
  have h2 := h.sent
  refine ⟨?_, ?_, fun hun => ?_⟩
  · omega
  · rw [InMemoryEventLog.push_sent]
    omega
  · have := h.unseen hun
    rw [InMemoryEventLog.push_sent]
    omega

/-- The step lemma: every section keeps the invariant, unless it is a look at an unseen key that
another task is about to insert. -/
theorem KeyInv.memStep (h : KeyInv k log tasks) (ht : tasks[i]? = some t)
    (hstep : memStep log t = some (log', t')) (hcond : NoInsertPending log tasks t) :
    KeyInv k log' (tasks.set i t') := by
  cases t with
  | check e =>
    simp only [Picloud.memStep, Option.some.injEq, Prod.mk.injEq] at hstep
    obtain ⟨rfl, rfl⟩ := hstep
    cases hdup : log.isDuplicate e with
    | true => exact h.set_outside ht (MemTask.outside_check e) (MemTask.outside_done _)
    | false =>
      rcases hcond with hd | hfree
      · rw [hdup] at hd
        cases hd
      · exact h.check ht hdup hfree
  | record e => cases hstep; exact h.record ht
  | send e => cases hstep; exact h.send ht
  | push e => cases hstep; exact h.push ht
  | done o => cases hstep

end

/-! ## Runs of the in-memory log -/

/-- No task looks at an unseen key that another task is about to insert. -/
def MemChecksAlone (p : Pool InMemoryEventLog MemTask) : Pool.Act EventEnvelope → Prop
  | .call _ => True
  | .step i => ∀ t, p.tasks[i]? = some t → NoInsertPending p.shared p.tasks t

theorem keyInv_memNext {p p' : Pool InMemoryEventLog MemTask} {a : Pool.Act EventEnvelope}
    {k : String} (hinv : KeyInv k p.shared p.tasks) (halone : MemChecksAlone p a)
    (h : memNext p a = some p') : KeyInv k p'.shared p'.tasks := by
  rcases Pool.next_cases h with ⟨e, rfl, rfl⟩ | ⟨i, t, log', t', rfl, ht, hstep, rfl⟩
  · exact hinv.append_outside (MemTask.outside_check e)
  · exact hinv.memStep ht hstep (halone t ht)

theorem keyInv_new (k : String) : KeyInv k InMemoryEventLog.new [] :=
  ⟨by simp [InMemoryEventLog.new], by simp [InMemoryEventLog.new],
    by simp [InMemoryEventLog.new]⟩

/-! ## Runs of the persistent log -/

/-- The part of a call that works on the in-memory log. -/
def Task.view : Task → MemTask
  | .inner t => t
  | _ => .done .stored

namespace PersistentEventLog

variable {J : JsonCodec EventEnvelope}

/-- No task makes its second look, at an unseen key, while another task is about to insert the
key. -/
def ChecksAlone (p : Pool PersistentEventLog Task) : Pool.Act Call → Prop
  | .call _ => True
  | .step i => ∀ t, p.tasks[i]? = some t →
      NoInsertPending p.shared.inner (p.tasks.map Task.view) t.view

/-- What a section of a call does in memory: a section of the in-memory append, or nothing, or it
drops the oldest events. -/
theorem logStep_view {log log' : PersistentEventLog} {t t' : Task}
    (h : logStep J log t = some (log', t')) :
    memStep log.inner t.view = some (log'.inner, t'.view) ∨
    (t.view.outside ∧ t'.view.outside ∧
      (log'.inner = log.inner ∨
        ∃ n, log'.inner = { log.inner with events := log.inner.events.drop n })) := by
  have hdone : ∀ o, (MemTask.done o).outside := MemTask.outside_done
  cases section_of_logStep h with
  | lineWritten => exact Or.inr ⟨hdone _, MemTask.outside_check _, Or.inl rfl⟩
  | keySeenInside hdup =>
    refine Or.inl ?_
    rw [Task.view, Task.view, memStep, if_pos hdup]
  | keyFree hdup =>
    refine Or.inl ?_
    rw [Task.view, Task.view, memStep, hdup]
    rfl
  | keyRecorded => exact Or.inl rfl
  | sent => exact Or.inl rfl
  | pushed => exact Or.inl rfl
  | @drained n hlen => exact Or.inr ⟨hdone _, hdone _, Or.inr ⟨n, rfl⟩⟩
  | _ => exact Or.inr ⟨hdone _, hdone _, Or.inl rfl⟩

theorem keyInv_logNext {p p' : Pool PersistentEventLog Task} {a : Pool.Act Call} {k : String}
    (hinv : KeyInv k p.shared.inner (p.tasks.map Task.view)) (halone : ChecksAlone p a)
    (h : logNext J p a = some p') : KeyInv k p'.shared.inner (p'.tasks.map Task.view) := by
  rcases Pool.next_cases h with ⟨c, rfl, rfl⟩ | ⟨i, t, log', t', rfl, ht, hstep, rfl⟩
  · show KeyInv k p.shared.inner ((p.tasks ++ [c.enter]).map Task.view)
    rw [List.map_append]
    have hout : c.enter.view.outside := by cases c <;> exact MemTask.outside_done _
    exact hinv.append_outside hout
  · have htv : (p.tasks.map Task.view)[i]? = some t.view := by simp [ht]
    show KeyInv k log'.inner ((p.tasks.set i t').map Task.view)
    rw [List.map_set]
    -- in memory the section is one of the in-memory append, nothing, or the drain of a compaction
    rcases logStep_view hstep with hmem | ⟨hout, hout', hsame | ⟨n, hdrop⟩⟩
    · exact hinv.memStep htv hmem (halone t ht)
    · rw [hsame]
      exact hinv.set_outside htv hout hout'
    · rw [hdrop]
      exact (hinv.drop n).set_outside htv hout hout'

/-- Calls made one after another keep the invariant, since each is alone. -/
theorem Reachable.keyInv {J : RoundTripCodec EventEnvelope} {log : PersistentEventLog} (h : Reachable J log) (k : String) :
    KeyInv k log.inner [] := by
  refine ReachedRereading.inner_induction (P := fun m => KeyInv k m []) (keyInv_new k) ?_
    (fun m n hm => hm.drop n) ?_ h.rereading
  · -- a sequential append is a task that goes through its sections alone
    intro m e hdup hm
    have hcheck : KeyInv k m [.check e] := hm.append_outside (MemTask.outside_check e)
    have hrecord : KeyInv k m [.record e] := hcheck.check (i := 0) rfl hdup fun k' _ => rfl
    have hsend : KeyInv k (m.recordKey e) [.send e] := hrecord.record (i := 0) rfl
    have hpush : KeyInv k ((m.recordKey e).send e) [.push e] := hsend.send (i := 0) rfl
    have hdone : KeyInv k (((m.recordKey e).send e).push e) [.done .stored] :=
      hpush.push (i := 0) rfl
    exact ⟨hdone.stored, hdone.sent, hdone.unseen⟩
  · -- after a replay no event has been sent and the seen keys are those of the events
    intro m hm
    have hev : (replayed m.events InMemoryEventLog.new).events = m.events := replayed_events _ _
    have hsent : (replayed m.events InMemoryEventLog.new).sent = [] := replayed_sent _ _
    refine ⟨by rw [hev]; exact hm.stored, by simp [hsent], fun hun => ?_⟩
    refine ⟨?_, by simp [hsent], rfl, rfl⟩
    rw [hev, List.countP_eq_zero]
    intro e he hk
    exact hun ((mem_replayed_seenKeys _ _ k).mpr
      (Or.inr ⟨e, he, EventEnvelope.hasKey_iff.mp hk⟩))

end PersistentEventLog

/-- **Idempotency under concurrency.** Let any number of appends interleave on a new in-memory log,
or of appends and compactions on a persistent log in any of its states. As long as no task looks at
an unseen key that another task is about to insert, no key is stored twice and no subscriber is sent
a key twice, in any state. -/
theorem keysOnce_of_checksAlone (J : RoundTripCodec EventEnvelope) :
    (∀ acts p, StepsMeet memNext MemChecksAlone ⟨InMemoryEventLog.new, []⟩ acts →
      runSteps memNext ⟨InMemoryEventLog.new, []⟩ acts = some p → KeysOnce p.shared) ∧
    ∀ log₀, PersistentEventLog.Reachable J log₀ → ∀ acts p,
      StepsMeet (PersistentEventLog.logNext J) PersistentEventLog.ChecksAlone ⟨log₀, []⟩ acts →
      runSteps (PersistentEventLog.logNext J) ⟨log₀, []⟩ acts = some p →
      KeysOnce p.shared.inner := by
  refine ⟨?_, ?_⟩
  · intro acts p hmeet hrun
    refine @keysOnce_of_keyInv _ p.tasks fun k => ?_
    exact runSteps_invariant memNext (I := fun p => KeyInv k p.shared p.tasks)
      (fun _ _ _ hinv halone hstep => keyInv_memNext hinv halone hstep) acts _ _ (keyInv_new k)
      hmeet hrun
  · intro log₀ hreach acts p hmeet hrun
    refine @keysOnce_of_keyInv _ (p.tasks.map Task.view) fun k => ?_
    exact runSteps_invariant (PersistentEventLog.logNext J)
      (I := fun p => KeyInv k p.shared.inner (p.tasks.map Task.view))
      (fun _ _ _ hinv halone hstep => PersistentEventLog.keyInv_logNext hinv halone hstep)
      acts _ _ (hreach.keyInv k) hmeet hrun

/-- Two appends with one key; the second one looks after the first has inserted. -/
def lookAfterInsert : List (Pool.Act EventEnvelope) :=
  [.call (nodeJoined 1 (some "key-abc")), .call (nodeJoined 1 (some "key-abc")),
    .step 0, .step 0, .step 1, .step 0, .step 0]

/-- Two appends with one key; both look before either inserts. -/
def lookTwice : List (Pool.Act EventEnvelope) :=
  [.call (nodeJoined 1 (some "key-abc")), .call (nodeJoined 1 (some "key-abc")),
    .step 0, .step 1, .step 0, .step 1, .step 0, .step 1, .step 0, .step 1]

/-- The same on a persistent log, with both lines written before the second looks. -/
def lookTwicePersistent : List (Pool.Act Call) :=
  [.call (.append (nodeJoined 1 (some "key-abc"))), .call (.append (nodeJoined 1 (some "key-abc"))),
    .step 0, .step 1, .step 0, .step 1, .step 0, .step 1, .step 0, .step 1, .step 0, .step 1,
    .step 0, .step 1]

/-- The second append finds the key. -/
theorem keysOnce_lookAfterInsert :
    ∃ p, runSteps memNext ⟨InMemoryEventLog.new, []⟩ lookAfterInsert = some p ∧
      KeysOnce p.shared := by
  have hstep : ∀ {p : Pool InMemoryEventLog MemTask} {i : ℕ} {t : MemTask},
      p.tasks[i]? = some t → NoInsertPending p.shared p.tasks t → MemChecksAlone p (.step i) := by
    intro p i t ht hfree u hu
    rw [ht, Option.some.injEq] at hu
    exact hu ▸ hfree
  have hmeet : StepsMeet memNext MemChecksAlone ⟨InMemoryEventLog.new, []⟩ lookAfterInsert :=
    ⟨trivial, trivial, hstep rfl (Or.inr fun k _ => rfl), hstep rfl trivial,
      hstep rfl (Or.inl (by decide)), hstep rfl trivial, hstep rfl trivial, trivial⟩
  exact ⟨_, rfl, (keysOnce_of_checksAlone sampleCodec).1 lookAfterInsert _ hmeet rfl⟩

/-- Both appends store and send the event, on either log. -/
theorem stored_twice_lookTwice :
    (∃ p, runSteps memNext ⟨InMemoryEventLog.new, []⟩ lookTwice = some p ∧
      p.shared.events = [nodeJoined 1 (some "key-abc"), nodeJoined 1 (some "key-abc")] ∧
      p.shared.sentTo (InMemoryEventLog.new.subscribe {}) =
        [nodeJoined 1 (some "key-abc"), nodeJoined 1 (some "key-abc")] ∧ ¬ KeysOnce p.shared) ∧
    ∃ p, runSteps (PersistentEventLog.logNext sampleCodec)
        ⟨PersistentEventLog.fresh "events.jsonl", []⟩ lookTwicePersistent = some p ∧
      ¬ KeysOnce p.shared.inner := by
  have htwice : ∀ m : InMemoryEventLog,
      m.events = [nodeJoined 1 (some "key-abc"), nodeJoined 1 (some "key-abc")] →
      ¬ KeysOnce m := by
    rintro m hm ⟨hnodup, -⟩
    rw [hm] at hnodup
    revert hnodup
    decide
  exact ⟨⟨_, rfl, rfl, rfl, htwice _ rfl⟩, _, rfl, htwice _ rfl⟩

end Picloud
