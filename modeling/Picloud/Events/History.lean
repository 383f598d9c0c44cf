import Picloud.Events.CompactionCrash

/-!
# Logical offsets

A log is compared with its history: the list of all events it has ever accepted. Compaction and
restarts take events out of memory and out of the file, but the history without its first
`snapshotOffset` events is always what is left, so an offset into the history means the same event
for the whole life of the log, as long as every restart reads the stored events back from their
lines. An event with a float that `serde_json` rounds does not read back.
-/

namespace Picloud

open Lib

namespace PersistentEventLog

variable (J : JsonCodec EventEnvelope)

/-! ## Calls with their history -/

/-- One call, with the history it extends: an append that is answered with `Ok` is accepted. -/
def historyStep (s : PersistentEventLog × List EventEnvelope) (op : Op) :
    Option (PersistentEventLog × List EventEnvelope) :=
  (opStep J s.1 op).map fun log' => (log', match op with
    | .append event =>
      match (s.1.append J event).1 with
      | .ok () => s.2 ++ [event]
      | .error _ => s.2
    | _ => s.2)

/-- An appended event repeats no key of the events accepted before. -/
def NewKey (s : PersistentEventLog × List EventEnvelope) : Op → Prop
  | .append event => ∀ k, event.idempotencyKey = some k → ∀ e ∈ s.2, e.idempotencyKey ≠ some k
  | _ => True

/-- The call repeats no key, and a restart finds stored events that read back. -/
def KeepsHistory (s : PersistentEventLog × List EventEnvelope) (op : Op) : Prop :=
  NewKey s op ∧ RestartReads J s.1 op

/-- What is left of the history `h` in the log. -/
structure Tracks (log : PersistentEventLog) (h : List EventEnvelope) : Prop where
  /-- The files agree with memory. -/
  clean : Clean J log
  /-- No more has been compacted away than there was. -/
  offset_le : log.snapshotOffset ≤ h.length
  /-- Memory holds the rest. -/
  events : log.inner.events = h.drop log.snapshotOffset
  /-- Every seen key is the key of an accepted event. -/
  keys : ∀ k ∈ log.inner.seenKeys, ∃ e ∈ h, e.idempotencyKey = some k

variable {J}

theorem tracks_fresh (path : String) : Tracks J (fresh path) [] :=
  ⟨clean_fresh path, le_rfl, rfl, by simp [fresh, InMemoryEventLog.new]⟩

/-- A sequential `compact`: refused without any effect, or the oldest events are gone and counted. -/
theorem compact_cases (log : PersistentEventLog) (n : ℕ) :
    ((n = 0 ∨ n > log.len) ∧ log.compact J n = (.error (discardError n log.len), log)) ∨
    (0 < n ∧ n ≤ log.len ∧
      (log.compact J n).2.inner = { log.inner with events := log.inner.events.drop n } ∧
      (log.compact J n).2.snapshotOffset = log.snapshotOffset + n) := by
  unfold compact
  by_cases hbad : n = 0 ∨ n > log.len
  · exact Or.inl ⟨hbad, by rw [if_pos hbad]⟩
  · right
    rw [if_neg hbad]
    refine ⟨by omega, by omega, rfl, rfl⟩

/-! ## One call -/

variable {h : List EventEnvelope} {log : PersistentEventLog}

theorem Tracks.length_events (ht : Tracks J log h) : log.len + log.snapshotOffset = h.length := by
  have hlen : log.len = (h.drop log.snapshotOffset).length := by rw [← ht.events]; rfl
  have := ht.offset_le
  rw [hlen, List.length_drop]
  omega

theorem Tracks.not_isDuplicate (ht : Tracks J log h) {e : EventEnvelope}
    (hnew : NewKey (log, h) (.append e)) :
    log.inner.isDuplicate e = false := by
  rw [InMemoryEventLog.isDuplicate_eq_false_iff]
  intro k hk hmem
  obtain ⟨e', he', hk'⟩ := ht.keys k hmem
  exact hnew k hk e' he' hk'

/-- An accepted event goes to the end of the history and of memory. -/
theorem Tracks.append (ht : Tracks J log h) {e : EventEnvelope} (hnew : NewKey (log, h) (.append e)) :
    Tracks J (log.append J e).2 (match (log.append J e).1 with
      | .ok () => h ++ [e]
      | .error _ => h) := by
  have hclean := ht.clean.append e
  rcases append_cases J log e with ⟨-, hdup, -⟩ | ⟨hsame, t, hterr⟩ | ⟨-, -, heq⟩
  · rw [ht.not_isDuplicate hnew] at hdup
    exact absurd hdup (by simp)
  · have herr : (log.append J e).1 = .error (serializeError e t) := by
      unfold PersistentEventLog.append
      rw [if_neg (by simp [ht.not_isDuplicate hnew]), hterr]
    rw [hsame, herr]
    exact ht
  · rw [heq] at hclean ⊢
    refine ⟨hclean, ?_, ?_, ?_⟩
    · show log.snapshotOffset ≤ (h ++ [e]).length
      have := ht.offset_le
      rw [List.length_append, List.length_singleton]
      omega
    · show (((log.inner.recordKey e).send e).push e).events = (h ++ [e]).drop log.snapshotOffset
      rw [List.drop_append_of_le_length ht.offset_le, ← ht.events]
      simp
    · intro k hk
      have hk' : k ∈ (log.inner.recordKey e).seenKeys := hk
      rcases InMemoryEventLog.mem_recordKey_seenKeys.mp hk' with hold | hkey
      · obtain ⟨e', he', hkey⟩ := ht.keys k hold
        exact ⟨e', List.mem_append_left _ he', hkey⟩
      · exact ⟨e, by simp, hkey⟩

/-- A compaction moves the offset over the events it takes out. -/
theorem Tracks.compact (ht : Tracks J log h) (n : ℕ) : Tracks J (log.compact J n).2 h := by
  rcases compact_cases (J := J) log n with ⟨-, heq⟩ | ⟨-, hle, hinner, hoff⟩
  · rw [heq]
    exact ht
  · have hlen := ht.length_events
    refine ⟨ht.clean.compact n, ?_, ?_, ?_⟩
    · rw [hoff]
      omega
    · rw [hinner, hoff, ← List.drop_drop, ← ht.events]
    · rw [hinner]
      exact ht.keys

/-- A restart finds the same events at the same offset. -/
theorem Tracks.reopened (ht : Tracks J log h) :
    Tracks J { log with inner := replayed log.inner.events InMemoryEventLog.new } h := by
  refine ⟨ht.clean.reopened, ht.offset_le, ?_, ?_⟩
  · show (replayed log.inner.events InMemoryEventLog.new).events = h.drop log.snapshotOffset
    rw [replayed_events, ← ht.events]
    rfl
  · intro k hk
    rcases (mem_replayed_seenKeys _ _ k).mp hk with hold | ⟨e, he, hkey⟩
    · simp [InMemoryEventLog.new] at hold
    · rw [ht.events] at he
      exact ⟨e, List.mem_of_mem_drop he, hkey⟩

/-- Every such call is enabled, a restart included, and what it leaves is tracked by its history. -/
theorem Tracks.historyStep (ht : Tracks J log h) (op : Op) (hop : KeepsHistory J (log, h) op) :
    ∃ log' h', historyStep J (log, h) op = some (log', h') ∧ Tracks J log' h' := by
  obtain ⟨hnew, hread⟩ := hop
  cases op with
  | append e => exact ⟨_, _, rfl, ht.append hnew⟩
  | compact n => exact ⟨_, _, rfl, ht.compact n⟩
  | compactIfNeeded =>
    refine ⟨_, _, rfl, ?_⟩
    rcases compactIfNeeded_snd (J := J) log with heq | heq
    · show Tracks J (log.compactIfNeeded J).2 h
      rwa [heq]
    · show Tracks J (log.compactIfNeeded J).2 h
      rw [heq]
      exact ht.compact _
  | reopen =>
    refine ⟨_, h, ?_, ht.reopened⟩
    unfold PersistentEventLog.historyStep
    rw [ht.clean.opStep_reopen (hread rfl)]
    rfl

/-! ## Whole runs -/

/-- Every sequence of such calls runs to its end, and its log is tracked by its history. -/
theorem Tracks.run (ht : Tracks J log h) (ops : List Op)
    (hops : StepsMeet (PersistentEventLog.historyStep J) (KeepsHistory J) (log, h) ops) :
    ∃ log' h', runSteps (PersistentEventLog.historyStep J) (log, h) ops = some (log', h') ∧
      Tracks J log' h' := by
  induction ops generalizing log h with
  | nil => exact ⟨log, h, rfl, ht⟩
  | cons op ops ih =>
    obtain ⟨hop, hrest⟩ := hops
    obtain ⟨log₁, h₁, hstep, ht₁⟩ := ht.historyStep op hop
    rw [hstep] at hrest
    obtain ⟨log', h', hrun, ht'⟩ := ih ht₁ hrest
    exact ⟨log', h', by rw [runSteps_cons, hstep]; exact hrun, ht'⟩

/-- Where every value reads back, nothing is asked of the restarts. -/
theorem Tracks.keepsHistory {J : RoundTripCodec EventEnvelope} (ht : Tracks J log h) {ops : List Op}
    (hops : StepsMeet (PersistentEventLog.historyStep J) NewKey (log, h) ops) :
    StepsMeet (PersistentEventLog.historyStep J) (KeepsHistory J) (log, h) ops := by
  have hkeeps : ∀ (s : PersistentEventLog × List EventEnvelope) op, Tracks J s.1 s.2 →
      NewKey s op → KeepsHistory J s op := fun s op ht hnew =>
    ⟨hnew, fun _ => ht.clean.readsBack⟩
  refine StepsMeet.of_invariant (PersistentEventLog.historyStep J) (I := fun s => Tracks J s.1 s.2)
    (fun s op s' hs hnew hstep => ?_) hkeeps ht hops
  obtain ⟨log', h', hstep', ht'⟩ := hs.historyStep op (hkeeps s op hs hnew)
  obtain rfl : (log', h') = s' := Option.some.inj (hstep'.symm.trans hstep)
  exact ht'

/-- The events from a logical offset on are what the history holds from there on. -/
theorem Tracks.eventsSince (ht : Tracks J log h) {n : ℕ} (hn : log.snapshotOffset ≤ n) :
    log.eventsSince n = h.drop n := by
  rw [eventsSince_eq_eventsFrom, eventsFrom, ht.events, List.drop_drop,
    show log.snapshotOffset + (n - log.snapshotOffset) = n by omega]

/-- **Logical offsets survive compaction and restart.** Every sequence of appends without a repeated
key, compactions, and restarts that find stored events that read back, runs to its end. With `h` the list of all accepted events, the total
count is the length of `h`, the snapshot offset and the length of the log add up to it, `events_since`
is `h` without its first events from the snapshot offset on, and a refused `compact` changes
nothing. -/
theorem offsets_survive_compaction_and_restart (J : JsonCodec EventEnvelope) (path : String)
    (ops : List Op) (hops : StepsMeet (historyStep J) (KeepsHistory J) (fresh path, []) ops) :
    ∃ log h, runSteps (historyStep J) (fresh path, []) ops = some (log, h) ∧
      log.totalEventCount = h.length ∧ log.snapshotOffset + log.len = h.length ∧
      (∀ n ≥ log.snapshotOffset, log.eventsSince n = h.drop n) ∧
      ∀ n, n = 0 ∨ n > log.len → (∃ err, (log.compact J n).1 = .error err) ∧
        (log.compact J n).2 = log := by
  obtain ⟨log, h, hrun, ht⟩ := (tracks_fresh path).run ops hops
  have hlen := ht.length_events
  have hcount : log.snapshotOffset + log.len = h.length := by omega
  refine ⟨log, h, hrun, hcount, hcount, fun n hn => ht.eventsSince hn, fun n hbad => ?_⟩
  rcases compact_cases (J := J) log n with ⟨-, heq⟩ | ⟨hpos, hle, -⟩
  · rw [heq]
    exact ⟨⟨_, rfl⟩, rfl⟩
  · omega

/-- Two events, the first compacted away, and a restart. -/
theorem offsets_survive_sample_run :
    ∃ log h, runSteps (historyStep sampleCodec) (fresh "events.jsonl", [])
        [.append (nodeJoined 1 none), .append (nodeJoined 2 none), .compact 1, .reopen] =
          some (log, h) ∧
      log.totalEventCount = h.length := by
  obtain ⟨log, h, hrun, htotal, -⟩ := offsets_survive_compaction_and_restart sampleCodec
    "events.jsonl" [.append (nodeJoined 1 none), .append (nodeJoined 2 none), .compact 1, .reopen]
    ((tracks_fresh _).keepsHistory (stepsMeet_of_forall _ (by simp [NewKey, nodeJoined]) _))
  exact ⟨log, h, hrun, htotal⟩

/-! ## A float that does not read back -/

/-- A `MetricRecorded` event with one value, given by its bits. -/
def metricRecorded (bits : UInt64) : EventEnvelope :=
  EventEnvelope.new 1 0 ⟨"https://picloud.local/schemas/events/MetricRecorded/v1"⟩ "MetricRecorded"
    ⟨"https://picloud.local/test"⟩ none 0
    (.object [("metrics", .array [.object [("name", .string "latency"), ("unit", .string "ms"),
        ("value", .number (.float bits))]]),
      ("node_iri", .string "https://picloud.local/test")])

/-- The mean 271/3, written as 90.33333333333333. -/
def meanRecorded : EventEnvelope := metricRecorded 0x4056955555555555

/-- The float below it, written as 90.33333333333331. Without `float_roundtrip` this is what
`serde_json` reads for both texts: the digits as an integer, rounded to a float, divided by 10¹⁴. -/
def meanRounded : EventEnvelope := metricRecorded 0x4056955555555554

/-- The texts of the two events. -/
def metricTable : List (EventEnvelope × String) :=
    [(meanRecorded,
      "\x7b\"id\":\"00000000-0000-0000-0000-000000000001\",\"schema\":\"https://picloud.local/schemas/events/MetricRecorded/v1\",\"event_type\":\"MetricRecorded\",\"timestamp\":\"1970-01-01T00:00:00Z\",\"source\":\"https://picloud.local/test\",\"product\":null,\"correlation_id\":\"00000000-0000-0000-0000-000000000000\",\"idempotency_key\":null,\"payload\":\x7b\"metrics\":[\x7b\"name\":\"latency\",\"unit\":\"ms\",\"value\":90.33333333333333\x7d],\"node_iri\":\"https://picloud.local/test\"\x7d\x7d"),
     (meanRounded,
      "\x7b\"id\":\"00000000-0000-0000-0000-000000000001\",\"schema\":\"https://picloud.local/schemas/events/MetricRecorded/v1\",\"event_type\":\"MetricRecorded\",\"timestamp\":\"1970-01-01T00:00:00Z\",\"source\":\"https://picloud.local/test\",\"product\":null,\"correlation_id\":\"00000000-0000-0000-0000-000000000000\",\"idempotency_key\":null,\"payload\":\x7b\"metrics\":[\x7b\"name\":\"latency\",\"unit\":\"ms\",\"value\":90.33333333333331\x7d],\"node_iri\":\"https://picloud.local/test\"\x7d\x7d")]

set_option maxRecDepth 5000 in
theorem nodup_metricTable : (metricTable.map Prod.snd).Nodup := by
  simp [metricTable]

set_option maxRecDepth 5000 in
theorem isLine_metricTable : ∀ p ∈ metricTable, IsLine p.2 := by
  simp only [metricTable, List.forall_mem_cons]
  exact ⟨isLine_ofList (by decide +kernel), isLine_ofList (by decide +kernel), by simp⟩

/-- `serde_json` on the two events, each read back. -/
def metricTexts : RoundTripCodec EventEnvelope :=
  RoundTripCodec.ofTable metricTable nodup_metricTable isLine_metricTable

theorem writes_rounded {e : EventEnvelope} (he : metricTexts.Writes e) :
    metricTexts.Writes (if e = meanRecorded then meanRounded else e) := by
  split_ifs
  · exact ⟨_, rfl⟩
  · exact he

/-- `serde_json` without `float_roundtrip` on the two events. -/
def roundingCodec : JsonCodec EventEnvelope := metricTexts.rereading _ writes_rounded

theorem fromStr_meanRecorded :
    roundingCodec.fromStr (roundingCodec.text meanRecorded) = .ok meanRounded := by
  have hw : metricTexts.Writes meanRecorded := ⟨_, rfl⟩
  unfold roundingCodec
  rw [JsonCodec.fromStr_rereading _ writes_rounded (metricTexts.readsBack hw), if_pos rfl]

/-- The log after one append of the mean. -/
theorem historyStep_meanRecorded :
    ∃ log, historyStep roundingCodec (fresh "events.jsonl", []) (.append meanRecorded) =
        some (log, [meanRecorded]) ∧
      Clean roundingCodec log ∧ log.inner.events = [meanRecorded] ∧ log.snapshotOffset = 0 := by
  have hw : roundingCodec.Writes meanRecorded := ⟨_, rfl⟩
  refine ⟨_, ?_, (clean_fresh "events.jsonl").append meanRecorded, ?_⟩
  all_goals
    rcases append_cases roundingCodec (fresh "events.jsonl") meanRecorded with
      ⟨-, hdup, -⟩ | ⟨-, t, ht⟩ | ⟨-, -, heq⟩
    · cases hdup
    · rw [hw.toString_eq] at ht
      cases ht
  · simp only [historyStep, opStep, heq, Option.map_some, List.nil_append]
  · rw [heq]
    exact ⟨rfl, rfl⟩

/-- One append and a clean restart, and the event at offset 0 is another one. -/
theorem reopen_rounds_float :
    StepsMeet (historyStep roundingCodec) NewKey (fresh "events.jsonl", [])
        [.append meanRecorded, .reopen] ∧
    ∃ log, runSteps (historyStep roundingCodec) (fresh "events.jsonl", [])
        [.append meanRecorded, .reopen] = some (log, [meanRecorded]) ∧
      log.snapshotOffset = 0 ∧ log.eventsSince 0 ≠ [meanRecorded].drop 0 := by
  obtain ⟨log₁, happend, hclean, hevents, hoffset⟩ := historyStep_meanRecorded
  have hopen : openLog roundingCodec log₁.path log₁.disk =
      .ok ⟨replayed [meanRounded] InMemoryEventLog.new, log₁.disk, log₁.path, log₁.snapshotOffset⟩ :=
    (openLog_render_iff hclean.writes hclean.file hclean.sidecar).mpr
      ⟨[meanRounded], hevents ▸ .cons fromStr_meanRecorded .nil, rfl⟩
  refine ⟨stepsMeet_of_forall _ (by simp [NewKey, meanRecorded, metricRecorded, EventEnvelope.new]) _,
    ⟨replayed [meanRounded] InMemoryEventLog.new, log₁.disk, log₁.path, log₁.snapshotOffset⟩, ?_,
    hoffset, ?_⟩
  · rw [runSteps_cons, happend, Option.bind_some, runSteps_singleton]
    simp only [historyStep, opStep, hopen, Option.map_some]
  · rw [eventsSince_eq_eventsFrom, eventsFrom, Nat.zero_sub, List.drop_zero, List.drop_zero]
    show [meanRounded] ≠ [meanRecorded]
    decide +kernel

end PersistentEventLog

end Picloud
