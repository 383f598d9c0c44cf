import Picloud.Events.CompactionCrash

/-!
# Idempotency over the life of a log

Calls are made one after another here. A key that the log has seen stays seen under `append` and
`compact`, and an `append` of a seen key changes nothing. A restart rebuilds the seen keys from the
file, so it keeps exactly the keys of the events that compaction has left in the log.
-/

namespace Picloud

open Lib

namespace PersistentEventLog

variable {J : RoundTripCodec EventEnvelope}

variable {e : EventEnvelope} {k : String} {log : PersistentEventLog}

/-- An event whose key was seen is acknowledged and changes nothing. -/
theorem append_of_seen (hk : e.idempotencyKey = some k) (hseen : k ∈ log.inner.seenKeys) :
    log.append J e = (.ok (), log) := by
  rw [append, if_pos (InMemoryEventLog.isDuplicate_eq_true_iff.mpr ⟨k, hk, hseen⟩)]

/-- An event that can be serialised and whose key was not seen is stored. -/
theorem append_of_not_seen (hk : e.idempotencyKey = some k) (hseen : k ∉ log.inner.seenKeys)
    (hw : J.Writes e) :
    (log.append J e).2.inner.events = log.inner.events ++ [e] := by
  have hdup : log.inner.isDuplicate e = false := by
    rw [InMemoryEventLog.isDuplicate_eq_false_iff, hk]
    intro k' hk'
    exact Option.some.inj hk' ▸ hseen
  rcases append_cases J log e with ⟨-, hdup', -⟩ | ⟨-, t, ht⟩ | ⟨-, -, heq⟩
  · rw [hdup] at hdup'
    cases hdup'
  · obtain ⟨s, hs⟩ := hw
    rw [hs] at ht
    cases ht
  · rw [heq]
    simp

/-- The keys of the stored events have been seen. -/
def EventKeysSeen (log : InMemoryEventLog) : Prop :=
  ∀ e ∈ log.events, ∀ k, e.idempotencyKey = some k → k ∈ log.seenKeys

theorem eventKeysSeen_replayed (es : List EventEnvelope) :
    EventKeysSeen (replayed es InMemoryEventLog.new) := by
  intro e he k hk
  rw [replayed_events] at he
  refine (mem_replayed_seenKeys es _ k).mpr (Or.inr ⟨e, ?_, hk⟩)
  simpa [InMemoryEventLog.new] using he

/-- `append` forgets no key. -/
theorem seenKeys_append (h : k ∈ log.inner.seenKeys) : k ∈ (log.append J e).2.inner.seenKeys := by
  rcases append_cases J log e with ⟨hsame, -⟩ | ⟨hsame, -⟩ | ⟨-, -, heq⟩
  · rwa [hsame]
  · rwa [hsame]
  · rw [heq]
    exact InMemoryEventLog.mem_recordKey_seenKeys.mpr (Or.inl h)

/-- `compact` does not touch the seen keys. -/
theorem seenKeys_compact (log : PersistentEventLog) (n : ℕ) :
    (log.compact J n).2.inner.seenKeys = log.inner.seenKeys := by
  rw [compact]
  split_ifs <;> rfl

theorem Reachable.eventKeysSeen (h : Reachable J log) :
    EventKeysSeen log.inner := by
  refine h.rereading.inner_induction ?_ ?_ ?_ fun m _ => eventKeysSeen_replayed _
  · intro e he
    simp [InMemoryEventLog.new] at he
  · intro m e hdup hseen e' he' k hk
    simp only [InMemoryEventLog.push_events, InMemoryEventLog.send_events,
      InMemoryEventLog.recordKey_events, List.mem_append, List.mem_singleton] at he'
    refine InMemoryEventLog.mem_recordKey_seenKeys.mpr ?_
    rcases he' with he' | rfl
    · exact Or.inl (hseen e' he' k hk)
    · exact Or.inr hk
  · intro m n hseen e he
    exact hseen e (List.mem_of_mem_drop he)

/-- A restart that forgets no key: each seen key is the key of an event the log still holds. -/
def KeysHeld (log : PersistentEventLog) (op : Op) : Prop :=
  op = .reopen → ∀ k ∈ log.inner.seenKeys, ∃ e ∈ log.inner.events, e.idempotencyKey = some k

instance (log : PersistentEventLog) (op : Op) : Decidable (KeysHeld log op) := by
  unfold KeysHeld
  infer_instance

theorem seenKeys_opStep {log' : PersistentEventLog} {op : Op} (hclean : Clean J log)
    (hheld : KeysHeld log op) (hk : k ∈ log.inner.seenKeys) (hstep : opStep J log op = some log') :
    k ∈ log'.inner.seenKeys := by
  cases op with
  | append e =>
    cases hstep
    exact seenKeys_append hk
  | compact n =>
    cases hstep
    rwa [seenKeys_compact]
  | compactIfNeeded =>
    cases hstep
    rcases compactIfNeeded_snd (J := J) log with heq | heq
    · rwa [heq]
    · rwa [heq, seenKeys_compact]
  | reopen =>
    -- the only call that can forget a key
    rw [hclean.opStep_reopen hclean.readsBack, Option.some.injEq] at hstep
    subst hstep
    exact (mem_replayed_seenKeys _ _ k).mpr (Or.inr (hheld rfl k hk))

/-- Along calls whose restarts forget no key, a seen key stays seen. -/
theorem seenKeys_runSteps {log' : PersistentEventLog} {ops : List Op} (hclean : Clean J log)
    (hmeet : StepsMeet (opStep J) KeysHeld log ops) (hrun : runSteps (opStep J) log ops = some log')
    (hk : k ∈ log.inner.seenKeys) :
    Clean J log' ∧ k ∈ log'.inner.seenKeys :=
  runSteps_invariant (opStep J) (I := fun log => Clean J log ∧ k ∈ log.inner.seenKeys)
    (fun _ _ _ hs hheld hstep => ⟨hs.1.opStep (fun _ => hs.1.readsBack) hstep, seenKeys_opStep hs.1 hheld hs.2 hstep⟩)
    ops log log' ⟨hclean, hk⟩ hmeet hrun

/-- **Idempotency while no restart follows the compaction of a keyed event.** Once an event with
key `k` is stored, every later event with key `k` is acknowledged and changes neither memory nor
file nor count, as long as each restart finds every seen key among the events the log still holds.
A restart that does not find one of them makes the log accept that key again. -/
theorem append_idempotent_of_keysHeld (J : RoundTripCodec EventEnvelope) (log : PersistentEventLog)
    (hreach : Reachable J log) (e₁ : EventEnvelope) (k : String) (hstored : e₁ ∈ log.inner.events)
    (hk₁ : e₁.idempotencyKey = some k) (ops : List Op) (log' : PersistentEventLog)
    (hmeet : StepsMeet (opStep J) KeysHeld log ops)
    (hrun : runSteps (opStep J) log ops = some log') :
    (∀ e₂ : EventEnvelope, e₂.idempotencyKey = some k → log'.append J e₂ = (.ok (), log')) ∧
    (¬ KeysHeld log' .reopen → ∃ k' ∈ log'.inner.seenKeys, ∃ log'',
      opStep J log' .reopen = some log'' ∧
        ∀ e₂ : EventEnvelope, e₂.idempotencyKey = some k' → J.Writes e₂ →
          (log''.append J e₂).2.inner.events = log''.inner.events ++ [e₂]) := by
  have hseen : k ∈ log.inner.seenKeys := hreach.eventKeysSeen e₁ hstored k hk₁
  obtain ⟨hclean', hseen'⟩ := seenKeys_runSteps hreach.clean hmeet hrun hseen
  refine ⟨fun e₂ hk₂ => append_of_seen hk₂ hseen', ?_⟩
  -- a key without an event is not in the file, so the replay does not find it
  intro hlost
  simp only [KeysHeld, forall_const] at hlost
  push Not at hlost
  obtain ⟨k', hk', hnone⟩ := hlost
  refine ⟨k', hk', { log' with inner := replayed log'.inner.events InMemoryEventLog.new },
    hclean'.opStep_reopen hclean'.readsBack, ?_⟩
  intro e₂ hk₂ hw
  refine append_of_not_seen hk₂ ?_ hw
  rw [mem_replayed_seenKeys]
  rintro (hmem | ⟨e, he, hek⟩)
  · simp [InMemoryEventLog.new] at hmem
  · exact hnone e he hek

/-- A log that has stored one keyed event. -/
def keyedLog : PersistentEventLog :=
  ((fresh "events.jsonl").append sampleCodec (nodeJoined 1 (some "key-abc"))).2

theorem reachable_keyedLog : Reachable sampleCodec keyedLog :=
  ⟨"events.jsonl", [.op (.append (nodeJoined 1 (some "key-abc")))], rfl⟩

/-- The event is recognised after a restart. -/
theorem append_idempotent_after_reopen :
    ∃ log', runSteps (opStep sampleCodec) keyedLog [.reopen] = some log' ∧
      log'.append sampleCodec (nodeJoined 1 (some "key-abc")) = (.ok (), log') := by
  have hrun : runSteps (opStep sampleCodec) keyedLog [.reopen] =
      some { keyedLog with inner := replayed keyedLog.inner.events InMemoryEventLog.new } := by
    rw [runSteps_singleton,
      reachable_keyedLog.clean.opStep_reopen reachable_keyedLog.clean.readsBack]
  have hmeet : StepsMeet (opStep sampleCodec) KeysHeld keyedLog [.reopen] :=
    (stepsMeet_singleton _).mpr (by decide +kernel)
  exact ⟨_, hrun, (append_idempotent_of_keysHeld sampleCodec keyedLog reachable_keyedLog
    (nodeJoined 1 (some "key-abc")) "key-abc" (by decide +kernel) rfl [.reopen] _ hmeet hrun).1
    (nodeJoined 1 (some "key-abc")) rfl⟩

/-- The event is accepted a second time when it was compacted away before the restart. -/
theorem append_accepted_after_compact_reopen :
    nodeJoined 1 (some "key-abc") ∈ keyedLog.inner.events ∧
    ∃ log', runSteps (opStep sampleCodec) keyedLog [.compact 1, .reopen] = some log' ∧
      (log'.append sampleCodec (nodeJoined 1 (some "key-abc"))).2.inner.events ≠
        log'.inner.events ∧
      (log'.append sampleCodec (nodeJoined 1 (some "key-abc"))).2.totalEventCount ≠
        log'.totalEventCount :=
  ⟨by decide +kernel, _, rfl, by decide +kernel, by decide +kernel⟩

end PersistentEventLog

end Picloud
