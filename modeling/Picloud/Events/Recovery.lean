import Picloud.Events.Log
import Picloud.Lib.Steps

/-!
# Reopening a log

A log that only sequential calls have touched is `Clean`: its file holds the lines of the events in
memory, in order, and its sidecar the snapshot offset. Reopening a clean log finds the same events
if and only if each of them reads back from its line, and then the same offset. What it does not
find is the set of seen idempotency keys: `open` rebuilds it from the file, and compaction has taken
lines out of the file.
-/

namespace Picloud

open Lib

namespace PersistentEventLog

variable (J : JsonCodec EventEnvelope)

/-! ## The file of a list of events -/

/-- The JSON lines of the events. -/
def render (es : List EventEnvelope) : Bytes := (es.map fun e => line (J.text e)).flatten

@[simp] theorem render_nil : render J [] = [] := rfl

theorem render_cons (e : EventEnvelope) (es : List EventEnvelope) :
    render J (e :: es) = line (J.text e) ++ render J es := by
  simp [render]

theorem render_append (es fs : List EventEnvelope) :
    render J (es ++ fs) = render J es ++ render J fs := by
  simp [render]

theorem render_singleton (e : EventEnvelope) : render J [e] = line (J.text e) := by
  simp [render]

/-- What the replay loop makes of a list of events: all of them in order, and their keys. -/
def replayed (es : List EventEnvelope) (log : InMemoryEventLog) : InMemoryEventLog :=
  es.foldl (fun log e => (log.recordKey e).push e) log

theorem replayed_cons (e : EventEnvelope) (es : List EventEnvelope) (log : InMemoryEventLog) :
    replayed (e :: es) log = replayed es ((log.recordKey e).push e) := rfl

theorem replayed_events (es : List EventEnvelope) (log : InMemoryEventLog) :
    (replayed es log).events = log.events ++ es := by
  induction es generalizing log with
  | nil => simp [replayed]
  | cons e es ih =>
    rw [replayed_cons, ih]
    simp

theorem replayed_sent (es : List EventEnvelope) (log : InMemoryEventLog) :
    (replayed es log).sent = log.sent := by
  induction es generalizing log with
  | nil => rfl
  | cons e es ih =>
    rw [replayed_cons, ih]
    simp

theorem mem_replayed_seenKeys (es : List EventEnvelope) (log : InMemoryEventLog) (k : String) :
    k ∈ (replayed es log).seenKeys ↔
      k ∈ log.seenKeys ∨ ∃ e ∈ es, e.idempotencyKey = some k := by
  induction es generalizing log with
  | nil => simp [replayed]
  | cons e es ih =>
    rw [replayed_cons, ih, InMemoryEventLog.push_seenKeys,
      InMemoryEventLog.mem_recordKey_seenKeys]
    simp [or_assoc]

variable {J}

/-- A line written for an event is read as what its text parses to. -/
theorem replayLine_of_writes {e : EventEnvelope} (h : J.Writes e) (n : ℕ)
    (log : InMemoryEventLog) :
    (∃ err, J.fromStr (J.text e) = .error err ∧ ∃ err', replayLine J n (utf8 (J.text e)) log = .error err') ∨
    ∃ f, J.fromStr (J.text e) = .ok f ∧
      replayLine J n (utf8 (J.text e)) log = .ok ((log.recordKey f).push f) := by
  obtain ⟨-, htrim, hne⟩ := J.isLine h.toString_eq
  rw [replayLine, ofUtf8_utf8]
  simp only [htrim]
  rw [if_neg hne]
  cases J.fromStr (J.text e) with
  | error err => exact Or.inl ⟨err, rfl, _, rfl⟩
  | ok f => exact Or.inr ⟨f, rfl, rfl⟩

variable {es : List EventEnvelope} {disk : Disk} {path : String} {log : PersistentEventLog}

/-- What the replay loop makes of the lines of `es` and the bytes behind them: each line is read as
what its text parses to. -/
theorem replayLines_render_append (h : ∀ e ∈ es, J.Writes e) (rest : Bytes) (n : ℕ)
    (log log' : InMemoryEventLog) :
    replayLines J n (lines (render J es ++ rest)) log = .ok log' ↔
      ∃ fs, List.Forall₂ (fun e f => J.fromStr (J.text e) = .ok f) es fs ∧
        replayLines J (n + es.length) (lines rest) (replayed fs log) = .ok log' := by
  induction es generalizing n log with
  | nil => simp [replayed]
  | cons e es ih =>
    have he : J.Writes e := h e List.mem_cons_self
    have hrest := ih fun e' he' => h e' (List.mem_cons_of_mem e he')
    rw [render_cons, List.append_assoc, lines_line_append (J.isLine he.toString_eq).1, replayLines]
    simp only [List.forall₂_cons_left_iff, List.length_cons]
    rw [show n + (es.length + 1) = n + 1 + es.length by omega]
    rcases replayLine_of_writes he n log with ⟨err, herr, err', hline⟩ | ⟨f, hf, hline⟩
    · rw [hline]
      refine iff_of_false (by simp) ?_
      rintro ⟨-, ⟨f, fs, hf, -⟩, -⟩
      simp [herr] at hf
    · rw [hline]
      simp only
      rw [hrest]
      constructor
      · rintro ⟨fs, hfs, hrun⟩
        exact ⟨f :: fs, ⟨f, fs, hf, hfs, rfl⟩, hrun⟩
      · rintro ⟨-, ⟨f', fs, hf', hfs, rfl⟩, hrun⟩
        obtain rfl : f = f' := Except.ok.inj (hf.symm.trans hf')
        exact ⟨fs, hfs, hrun⟩

/-- Opening files that hold the lines of `es` and an offset. -/
theorem openLog_render_iff {offset : ℕ} {log' : PersistentEventLog} (hw : ∀ e ∈ es, J.Writes e)
    (hlog : disk.log = some (render J es)) (hoff : loadOffset path disk = .ok offset) :
    openLog J path disk = .ok log' ↔
      ∃ fs, List.Forall₂ (fun e f => J.fromStr (J.text e) = .ok f) es fs ∧
        log' = ⟨replayed fs InMemoryEventLog.new, disk, path, offset⟩ := by
  -- the file is there, so opening it for appending creates nothing
  have hdisk : { disk with log := some (disk.log.getD []) } = disk := by
    cases disk
    simp only at hlog
    rw [hlog]
    rfl
  have hloop := replayLines_render_append hw [] 0 InMemoryEventLog.new
  rw [List.append_nil] at hloop
  have hdef : openLog J path disk =
      (replayLines J 0 (lines (render J es)) InMemoryEventLog.new).map
        fun inner => ⟨inner, disk, path, offset⟩ := by
    simp only [openLog, hlog, hoff, bind, Except.bind, pure, Except.pure, Except.map]
    rw [← hlog, hdisk]
  rw [hdef]
  constructor
  · intro hopen
    cases hrun : replayLines J 0 (lines (render J es)) InMemoryEventLog.new with
    | error err => simp [hrun, Except.map] at hopen
    | ok inner =>
      obtain ⟨fs, hfs, hinner⟩ := (hloop inner).mp hrun
      simp only [hrun, Except.map, Except.ok.injEq] at hopen
      exact ⟨fs, hfs, by rw [← hopen, ← Except.ok.inj hinner]⟩
  · rintro ⟨fs, hfs, rfl⟩
    rw [(hloop _).mpr ⟨fs, hfs, rfl⟩]
    rfl

/-- The lines of events that read back. -/
theorem forall₂_of_readsBack (h : ∀ e ∈ es, J.ReadsBack e) :
    List.Forall₂ (fun e f => J.fromStr (J.text e) = .ok f) es es :=
  List.forall₂_same.mpr fun e he => (h e he).fromStr_text

/-- Opening the file of events that read back. -/
theorem openLog_of_render {offset : ℕ} (hread : ∀ e ∈ es, J.ReadsBack e)
    (hlog : disk.log = some (render J es)) (hoff : loadOffset path disk = .ok offset) :
    openLog J path disk =
      .ok ⟨replayed es InMemoryEventLog.new, disk, path, offset⟩ :=
  (openLog_render_iff (fun e he => (hread e he).writes) hlog hoff).mpr
    ⟨es, forall₂_of_readsBack hread, rfl⟩

/-- Opening finds as many events as there are lines, and the events themselves only if they all read
back. -/
theorem openLog_render_events {offset : ℕ} {log' : PersistentEventLog} (hw : ∀ e ∈ es, J.Writes e)
    (hlog : disk.log = some (render J es)) (hoff : loadOffset path disk = .ok offset)
    (hopen : openLog J path disk = .ok log') :
    log'.inner.events.length = es.length ∧ log'.snapshotOffset = offset ∧
      (log'.inner.events = es → ∀ e ∈ es, J.ReadsBack e) := by
  obtain ⟨fs, hfs, rfl⟩ := (openLog_render_iff hw hlog hoff).mp hopen
  have hevents : (replayed fs InMemoryEventLog.new).events = fs := replayed_events _ _
  refine ⟨by rw [hevents, hfs.length_eq], rfl, ?_⟩
  rw [hevents]
  rintro rfl e he
  exact (hw e he).readsBack_iff.mpr (List.forall₂_same.mp hfs e he)

theorem loadOffset_of_text {n : ℕ} (h : disk.sidecar = some (utf8 (toString n))) :
    loadOffset path disk = .ok n := by
  rw [loadOffset, h]
  simp only [ofUtf8_utf8]
  rw [trim_natText, parseNat_toString]
  rfl

/-! ## Clean logs -/

variable (J)

/-- The files agree with memory. -/
structure Clean (log : PersistentEventLog) : Prop where
  /-- Every stored event can be serialised. -/
  writes : ∀ e ∈ log.inner.events, J.Writes e
  /-- The file holds the stored events, in order. -/
  file : log.disk.log = some (render J log.inner.events)
  /-- The sidecar holds the snapshot offset. -/
  sidecar : loadOffset log.path log.disk = .ok log.snapshotOffset

variable {J}

/-- Reopening a clean log whose events read back: events, files and offset are the same, the
broadcast channel is new, and the seen keys are those of the events in the file. -/
theorem Clean.openLog_eq (h : Clean J log) (hread : ∀ e ∈ log.inner.events, J.ReadsBack e) :
    openLog J log.path log.disk =
      .ok { log with inner := replayed log.inner.events InMemoryEventLog.new } :=
  openLog_of_render hread h.file h.sidecar

/-- What is read from such files is clean. -/
theorem clean_of_render {offset : ℕ} (hw : ∀ e ∈ es, J.Writes e)
    (hlog : disk.log = some (render J es)) (hoff : loadOffset path disk = .ok offset) :
    Clean J ⟨replayed es InMemoryEventLog.new, disk, path, offset⟩ := by
  have hev : (replayed es InMemoryEventLog.new).events = es := replayed_events _ _
  refine ⟨?_, ?_, hoff⟩
  · simpa only [hev] using hw
  · simpa only [hev] using hlog

theorem Clean.reopened (h : Clean J log) :
    Clean J { log with inner := replayed log.inner.events InMemoryEventLog.new } :=
  clean_of_render h.writes h.file h.sidecar

/-- A log opened where there are no files. -/
def fresh (path : String) : PersistentEventLog :=
  ⟨InMemoryEventLog.new, ⟨some [], none, none⟩, path, 0⟩

theorem clean_fresh (path : String) : Clean J (fresh path) :=
  ⟨by simp [fresh, InMemoryEventLog.new], rfl, rfl⟩

theorem Clean.writeLine (h : Clean J log) (e : EventEnvelope) :
    (log.writeLine (J.text e)).disk.log = some (render J (log.inner.events ++ [e])) := by
  simp [PersistentEventLog.writeLine, FsOp.exec, h.file, render_append, render_singleton]

/-- What a sequential `append` does: nothing, or one line and one event. -/
theorem append_cases (J : JsonCodec EventEnvelope) (log : PersistentEventLog) (e : EventEnvelope) :
    ((log.append J e).2 = log ∧ log.inner.isDuplicate e = true ∧ (log.append J e).1 = .ok ()) ∨
    ((log.append J e).2 = log ∧ ∃ t, J.toString e = .error t) ∨
    (log.inner.isDuplicate e = false ∧ J.Writes e ∧
      log.append J e = (.ok (), { log.writeLine (J.text e) with
        inner := ((log.inner.recordKey e).send e).push e })) := by
  rw [append]
  cases hdup : log.inner.isDuplicate e with
  | true => exact Or.inl ⟨rfl, rfl, rfl⟩
  | false =>
    rw [if_neg (by simp)]
    cases htext : J.toString e with
    | error t => exact Or.inr (Or.inl ⟨rfl, t, rfl⟩)
    | ok s =>
      have hs : J.text e = s := by rw [JsonCodec.text, htext]
      refine Or.inr (Or.inr ⟨rfl, ⟨s, htext⟩, ?_⟩)
      simp only [hs, PersistentEventLog.writeLine, InMemoryEventLog.append, hdup]
      rfl

theorem Clean.append (h : Clean J log) (e : EventEnvelope) :
    Clean J (log.append J e).2 := by
  rcases append_cases J log e with ⟨hsame, -⟩ | ⟨hsame, -⟩ | ⟨-, he, heq⟩
  · rwa [hsame]
  · rwa [hsame]
  · rw [heq]
    refine ⟨?_, ?_, h.sidecar⟩
    · intro e' he'
      simp only [InMemoryEventLog.push_events, InMemoryEventLog.send_events,
        InMemoryEventLog.recordKey_events, List.mem_append, List.mem_singleton] at he'
      rcases he' with he' | rfl
      · exact h.writes e' he'
      · exact he
    · simpa using h.writeLine e

/-! ## The operations of a compaction -/

theorem lineOps_of_writes (h : ∀ e ∈ es, J.Writes e) :
    lineOps J es = (es.map fun e => .writeTmp (line (J.text e)), .ok ()) := by
  induction es with
  | nil => rfl
  | cons e es ih =>
    have he : J.Writes e := h e List.mem_cons_self
    rw [lineOps, he.toString_eq, ih fun e' he' => h e' (List.mem_cons_of_mem e he')]
    rfl

theorem rewriteOps_of_writes (h : ∀ e ∈ es, J.Writes e) (offset : ℕ) :
    rewriteOps J es offset =
      (.createTmp :: (es.map fun e => .writeTmp (line (J.text e))) ++
        [.renameTmp, .writeSidecar (utf8 (toString offset)), .reopenLog], .ok ()) := by
  rw [rewriteOps, lineOps_of_writes h]

theorem execAll_append (disk : Disk) (ops ops' : List FsOp) :
    FsOp.execAll disk (ops ++ ops') = FsOp.execAll (FsOp.execAll disk ops) ops' := by
  simp [FsOp.execAll]

/-- The line writes fill the temporary file and touch nothing else. -/
theorem execAll_writeTmp (es : List EventEnvelope) (disk : Disk) (b : Bytes)
    (htmp : disk.tmp = some b) :
    FsOp.execAll disk (es.map fun e => .writeTmp (line (J.text e))) =
      { disk with tmp := some (b ++ render J es) } := by
  induction es generalizing disk b with
  | nil => simp [FsOp.execAll, ← htmp]
  | cons e es ih =>
    have hstep : FsOp.execAll disk ((e :: es).map fun e => .writeTmp (line (J.text e))) =
        FsOp.execAll (FsOp.exec disk (.writeTmp (line (J.text e))))
          (es.map fun e => .writeTmp (line (J.text e))) := rfl
    rw [hstep, ih _ (b ++ line (J.text e)) (by simp [FsOp.exec, htmp]), render_cons]
    simp [FsOp.exec]

/-- The files after a whole rewrite. -/
theorem execAll_rewriteOps (h : ∀ e ∈ es, J.Writes e) (offset : ℕ) (disk : Disk) :
    FsOp.execAll disk (rewriteOps J es offset).1 =
      ⟨some (render J es), none, some (utf8 (toString offset))⟩ := by
  rw [rewriteOps_of_writes h, List.cons_append]
  have hcreate : FsOp.execAll disk (.createTmp ::
      ((es.map fun e => .writeTmp (line (J.text e))) ++
        [.renameTmp, .writeSidecar (utf8 (toString offset)), .reopenLog])) =
      FsOp.execAll { disk with tmp := some [] } ((es.map fun e => .writeTmp (line (J.text e))) ++
        [.renameTmp, .writeSidecar (utf8 (toString offset)), .reopenLog]) := rfl
  rw [hcreate, execAll_append, execAll_writeTmp es _ [] rfl]
  rfl

/-- Rewriting the file with what memory holds makes a log clean. -/
theorem clean_rewrite (h : ∀ e ∈ log.inner.events, J.Writes e) :
    Clean J (log.rewrite J log.inner.events).2 := by
  rw [rewrite, execAll_rewriteOps h]
  exact ⟨h, rfl, loadOffset_of_text rfl⟩

theorem Clean.compact (h : Clean J log) (n : ℕ) :
    Clean J (log.compact J n).2 := by
  rw [PersistentEventLog.compact]
  split_ifs
  · exact h
  · refine @clean_rewrite J ((log.drain n).advanceOffset n) ?_
    intro e he
    exact h.writes e (List.mem_of_mem_drop he)

/-! ## Calls one after another -/

/-- The calls a process makes on its log, and a restart of the process. -/
inductive Op where
  | append (event : EventEnvelope)
  | compact (discardCount : ℕ)
  | compactIfNeeded
  | reopen
deriving DecidableEq

variable (J) in
/-- Execute one call to its end; a restart needs `open` to succeed. -/
def opStep (log : PersistentEventLog) : Op → Option PersistentEventLog
  | .append event => some (log.append J event).2
  | .compact n => some (log.compact J n).2
  | .compactIfNeeded => some (log.compactIfNeeded J).2
  | .reopen =>
    match openLog J log.path log.disk with
    | .ok log' => some log'
    | .error _ => none

/-- `compact_if_needed` is a compaction or nothing. -/
theorem compactIfNeeded_snd (log : PersistentEventLog) :
    (log.compactIfNeeded J).2 = log ∨
      (log.compactIfNeeded J).2 = (log.compact J (log.len - compactionKeep)).2 := by
  rw [compactIfNeeded]
  split_ifs
  · cases hc : log.compact J (log.len - compactionKeep) with
    | mk r log' => cases r <;> exact Or.inr rfl
  · exact Or.inl rfl

variable (J) in
/-- A restart finds stored events that read back. -/
def RestartReads (log : PersistentEventLog) (op : Op) : Prop :=
  op = .reopen → ∀ e ∈ log.inner.events, J.ReadsBack e

theorem Clean.opStep_reopen (h : Clean J log) (hread : ∀ e ∈ log.inner.events, J.ReadsBack e) :
    opStep J log .reopen =
      some { log with inner := replayed log.inner.events InMemoryEventLog.new } := by
  simp only [opStep, h.openLog_eq hread]

theorem Clean.opStep {log' : PersistentEventLog} {op : Op} (h : Clean J log)
    (hread : RestartReads J log op) (hstep : opStep J log op = some log') : Clean J log' := by
  cases op with
  | append e =>
    cases hstep
    exact h.append e
  | compact n =>
    cases hstep
    exact h.compact n
  | compactIfNeeded =>
    cases hstep
    rcases compactIfNeeded_snd (J := J) log with heq | heq
    · rwa [heq]
    · rw [heq]
      exact h.compact _
  | reopen =>
    rw [h.opStep_reopen (hread rfl), Option.some.injEq] at hstep
    exact hstep ▸ h.reopened

/-- With a codec in which every value reads back, so do the stored events. -/
theorem Clean.readsBack {J : RoundTripCodec EventEnvelope} {log : PersistentEventLog}
    (h : Clean J log) : ∀ e ∈ log.inner.events, J.ReadsBack e :=
  fun e he => J.readsBack (h.writes e he)

/-- `compact` drops the oldest events from memory, or is refused. -/
theorem compact_inner (log : PersistentEventLog) (n : ℕ) :
    (log.compact J n).2.inner = log.inner ∨
      (log.compact J n).2.inner = { log.inner with events := log.inner.events.drop n } := by
  rw [compact]
  split_ifs
  · exact Or.inl rfl
  · exact Or.inr rfl

end PersistentEventLog

/-! ## Sample events -/

/-- A `NodeJoined` event as the platform emits it. -/
def nodeJoined (id : Uuid) (key : Option String) : EventEnvelope :=
  { EventEnvelope.new id 0 ⟨"https://picloud.local/schemas/events/NodeJoined/v1"⟩ "NodeJoined"
      ⟨"https://picloud.local/test"⟩ none 0 (.object []) with idempotencyKey := key }

/-- The text of the first sample event. -/
def joinedText₁ : String :=
  "\x7b\"id\":\"00000000-0000-0000-0000-000000000001\",\"schema\":\"https://picloud.local/schemas/events/NodeJoined/v1\",\"event_type\":\"NodeJoined\",\"timestamp\":\"1970-01-01T00:00:00Z\",\"source\":\"https://picloud.local/test\",\"product\":null,\"correlation_id\":\"00000000-0000-0000-0000-000000000000\",\"idempotency_key\":null,\"payload\":\x7b\x7d\x7d"

/-- The text of the second one, which differs in the last digit of its id. -/
def joinedText₂ : String :=
  "\x7b\"id\":\"00000000-0000-0000-0000-000000000002\",\"schema\":\"https://picloud.local/schemas/events/NodeJoined/v1\",\"event_type\":\"NodeJoined\",\"timestamp\":\"1970-01-01T00:00:00Z\",\"source\":\"https://picloud.local/test\",\"product\":null,\"correlation_id\":\"00000000-0000-0000-0000-000000000000\",\"idempotency_key\":null,\"payload\":\x7b\x7d\x7d"

set_option maxRecDepth 4000 in
theorem isLine_joinedText : IsLine joinedText₁ ∧ IsLine joinedText₂ :=
  ⟨isLine_ofList (by decide +kernel), isLine_ofList (by decide +kernel)⟩

theorem joinedText_ne : joinedText₁ ≠ joinedText₂ := by
  simp [joinedText₁, joinedText₂]

set_option maxRecDepth 4000 in
theorem length_joinedText : joinedText₂.toList.length = joinedText₁.toList.length := by
  rw [toList_of_eq (s := joinedText₁) rfl, toList_of_eq (s := joinedText₂) rfl]
  rfl

set_option maxRecDepth 4000 in
/-- `serde_json` on three sample events. -/
def sampleCodec : RoundTripCodec EventEnvelope :=
  RoundTripCodec.ofTable
    [(nodeJoined 1 none, joinedText₁),
     (nodeJoined 2 none, joinedText₂),
     (nodeJoined 1 (some "key-abc"),
      "\x7b\"id\":\"00000000-0000-0000-0000-000000000001\",\"schema\":\"https://picloud.local/schemas/events/NodeJoined/v1\",\"event_type\":\"NodeJoined\",\"timestamp\":\"1970-01-01T00:00:00Z\",\"source\":\"https://picloud.local/test\",\"product\":null,\"correlation_id\":\"00000000-0000-0000-0000-000000000000\",\"idempotency_key\":\"key-abc\",\"payload\":\x7b\x7d\x7d")]
    (by simp [joinedText₁, joinedText₂])
    (by
      simp only [List.forall_mem_cons]
      exact ⟨isLine_joinedText.1, isLine_joinedText.2, isLine_ofList (by decide +kernel), by simp⟩)

end Picloud
