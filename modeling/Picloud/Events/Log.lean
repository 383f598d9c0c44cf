import Picloud.Domain.Event
import Picloud.Lib.JsonLines
import Picloud.Lib.KeepFirst

/-!
# The event logs

Reference: `picloud-events/src/implementation.rs`.

`InMemoryEventLog` keeps the events in a vector, broadcasts them and drops an event whose
idempotency key it has seen. `PersistentEventLog` adds a JSON-lines file, written before memory,
and a compaction that drops the oldest events, rewrites the file and records in a sidecar file how
many events are gone.

Each section that the source protects by one lock is a function of its own here
(`isDuplicate`, `recordKey`, `send`, `push`, `writeLine`, `drain`, `advanceOffset`, `rewrite`);
`append` and `compact` are their sequential compositions. `usize` is `ℕ`, and file operations
succeed: only the failures of JSON and of UTF-8 are modelled.
-/

namespace Picloud

open Lib

/-- Lower-case hexadecimal digits, most significant first. -/
def hexDigits : ℕ → ℕ → List Char
  | 0, _ => []
  | w + 1, n => hexDigits w (n / 16) ++ [Nat.digitChar (n % 16)]

/-- The hyphenated form of a `Uuid`. -/
def Uuid.display (u : Uuid) : String :=
  let h := hexDigits 32 u.toNat
  String.ofList (h.take 8 ++ '-' :: (h.drop 8).take 4 ++ '-' :: (h.drop 12).take 4 ++
    '-' :: (h.drop 16).take 4 ++ '-' :: h.drop 20)

/-! ## The in-memory log -/

/-- `InMemoryEventLog`. The broadcast channel is the history of what was sent through it; the hash
set of seen keys is used through membership only. -/
structure InMemoryEventLog where
  events : List EventEnvelope
  sent : List EventEnvelope
  seenKeys : List String
deriving DecidableEq

namespace InMemoryEventLog

/-- `InMemoryEventLog::new`. -/
def new : InMemoryEventLog := ⟨[], [], []⟩

/-- `InMemoryEventLog::len`. -/
def len (log : InMemoryEventLog) : ℕ := log.events.length

/-- `InMemoryEventLog::events_since`: the events from a physical offset on. -/
def eventsSince (log : InMemoryEventLog) (offset : ℕ) : List EventEnvelope :=
  if offset ≥ log.events.length then [] else log.events.drop offset

theorem eventsSince_eq_drop (log : InMemoryEventLog) (offset : ℕ) :
    log.eventsSince offset = log.events.drop offset := by
  rw [eventsSince]
  split_ifs with h
  · exact (List.drop_of_length_le h).symm
  · rfl

/-- The read section of `append`: the key was seen before. -/
def isDuplicate (log : InMemoryEventLog) (event : EventEnvelope) : Bool :=
  match event.idempotencyKey with
  | some key => key ∈ log.seenKeys
  | none => false

/-- The write section on `seen_keys`. -/
def recordKey (log : InMemoryEventLog) (event : EventEnvelope) : InMemoryEventLog :=
  match event.idempotencyKey with
  | some key => { log with seenKeys := log.seenKeys.insert key }
  | none => log

/-- `self.sender.send(event)`. -/
def send (log : InMemoryEventLog) (event : EventEnvelope) : InMemoryEventLog :=
  { log with sent := log.sent ++ [event] }

/-- The write section on `events`. -/
def push (log : InMemoryEventLog) (event : EventEnvelope) : InMemoryEventLog :=
  { log with events := log.events ++ [event] }

/-- `InMemoryEventLog::append`, its sections executed without interruption. It never fails. -/
def append (log : InMemoryEventLog) (event : EventEnvelope) : InMemoryEventLog :=
  if log.isDuplicate event then log else ((log.recordKey event).send event).push event

@[simp] theorem recordKey_events (log : InMemoryEventLog) (e : EventEnvelope) :
    (log.recordKey e).events = log.events := by
  rw [recordKey]
  split <;> rfl

@[simp] theorem recordKey_sent (log : InMemoryEventLog) (e : EventEnvelope) :
    (log.recordKey e).sent = log.sent := by
  rw [recordKey]
  split <;> rfl

@[simp] theorem send_events (log : InMemoryEventLog) (e : EventEnvelope) :
    (log.send e).events = log.events := rfl

@[simp] theorem send_sent (log : InMemoryEventLog) (e : EventEnvelope) :
    (log.send e).sent = log.sent ++ [e] := rfl

@[simp] theorem send_seenKeys (log : InMemoryEventLog) (e : EventEnvelope) :
    (log.send e).seenKeys = log.seenKeys := rfl

@[simp] theorem push_events (log : InMemoryEventLog) (e : EventEnvelope) :
    (log.push e).events = log.events ++ [e] := rfl

@[simp] theorem push_sent (log : InMemoryEventLog) (e : EventEnvelope) :
    (log.push e).sent = log.sent := rfl

@[simp] theorem push_seenKeys (log : InMemoryEventLog) (e : EventEnvelope) :
    (log.push e).seenKeys = log.seenKeys := rfl

variable {e : EventEnvelope} {log : InMemoryEventLog}

/-- Recording adds the key of the event and nothing else. -/
theorem mem_recordKey_seenKeys {k : String} :
    k ∈ (log.recordKey e).seenKeys ↔ k ∈ log.seenKeys ∨ e.idempotencyKey = some k := by
  rw [recordKey]
  split
  · next key hkey => simp [List.mem_insert_iff, hkey, or_comm, eq_comm]
  · next hkey => simp [hkey]

theorem isDuplicate_eq_true_iff :
    log.isDuplicate e = true ↔ ∃ k, e.idempotencyKey = some k ∧ k ∈ log.seenKeys := by
  rw [isDuplicate]
  split
  · next key hkey => simp [hkey]
  · next hkey => simp [hkey]

theorem isDuplicate_eq_false_iff :
    log.isDuplicate e = false ↔ ∀ k, e.idempotencyKey = some k → k ∉ log.seenKeys := by
  rw [← Bool.not_eq_true, isDuplicate_eq_true_iff]
  push Not
  rfl

/-- A log stores and sends the events whose key it has not seen. -/
theorem foldl_append (log : InMemoryEventLog) (es : List EventEnvelope) :
    (es.foldl append log).events =
        log.events ++ keepFirst EventEnvelope.idempotencyKey log.seenKeys es ∧
      (es.foldl append log).sent =
        log.sent ++ keepFirst EventEnvelope.idempotencyKey log.seenKeys es := by
  induction es generalizing log with
  | nil => simp [keepFirst]
  | cons e es ih =>
    rw [List.foldl_cons, (ih (log.append e)).1, (ih (log.append e)).2, keepFirst]
    cases hkey : e.idempotencyKey with
    | none =>
      have hdup : log.isDuplicate e = false := by simp [isDuplicate, hkey]
      simp [append, hdup, recordKey, hkey]
    | some k =>
      dsimp only
      split_ifs with hk
      · have hdup : log.isDuplicate e = true := by simp [isDuplicate, hkey, hk]
        rw [append, if_pos hdup]
        exact ⟨rfl, rfl⟩
      · have hdup : log.isDuplicate e = false := by simp [isDuplicate, hkey, hk]
        have hseen : ∀ l, l ∈ (log.append e).seenKeys ↔ l ∈ k :: log.seenKeys := by
          intro l
          simp [append, hdup, mem_recordKey_seenKeys, hkey, or_comm, eq_comm]
        rw [keepFirst_congr hseen]
        simp [append, hdup]

end InMemoryEventLog

/-! ## Subscriptions -/

/-- `matches_filter`. -/
def matchesFilter (event : EventEnvelope) (filter : EventFilter) : Bool :=
  (match filter.correlationId with
    | some cid => event.correlationId == cid
    | none => true) &&
  (match filter.product with
    | some product => event.product == some product
    | none => true) &&
  (filter.eventTypes.isEmpty || filter.eventTypes.contains event.eventType)

/-- A receiver: what it asked for, and how much had been broadcast when it subscribed. -/
structure Receiver where
  filter : EventFilter
  start : ℕ

/-- `subscribe`. Without criteria the source hands out the raw channel, which `matchesFilter`
passes through unchanged; with criteria a task forwards the matching events. -/
def InMemoryEventLog.subscribe (log : InMemoryEventLog) (filter : EventFilter) : Receiver :=
  ⟨filter, log.sent.length⟩

/-- The events that have been sent to a receiver. -/
def InMemoryEventLog.sentTo (log : InMemoryEventLog) (r : Receiver) : List EventEnvelope :=
  (log.sent.drop r.start).filter fun e => matchesFilter e r.filter

/-! ## Files -/

/-- The files of a persistent log: the JSON-lines file, the temporary file of a compaction and the
sidecar with the snapshot offset. -/
structure Disk where
  log : Option Bytes
  tmp : Option Bytes
  sidecar : Option Bytes
deriving DecidableEq

/-- No file exists. -/
def Disk.empty : Disk := ⟨none, none, none⟩

/-- The file-system operations of `append` and `compact`. -/
inductive FsOp where
  /-- `writeln!` on the log file, opened for appending. -/
  | appendLog (bytes : Bytes)
  /-- `File::create` of the temporary file. -/
  | createTmp
  /-- `writeln!` on the temporary file. -/
  | writeTmp (bytes : Bytes)
  /-- `rename` of the temporary file over the log file. -/
  | renameTmp
  /-- `fs::write` of the sidecar. -/
  | writeSidecar (bytes : Bytes)
  /-- Opening the log file for appending. -/
  | reopenLog
deriving DecidableEq

/-- The effect of one file-system operation. -/
def FsOp.exec (disk : Disk) : FsOp → Disk
  | .appendLog bytes => { disk with log := some (disk.log.getD [] ++ bytes) }
  | .createTmp => { disk with tmp := some [] }
  | .writeTmp bytes => { disk with tmp := disk.tmp.map (· ++ bytes) }
  | .renameTmp => { disk with log := disk.tmp, tmp := none }
  | .writeSidecar bytes => { disk with sidecar := some bytes }
  | .reopenLog => disk

/-- Execute operations in order. -/
def FsOp.execAll (disk : Disk) (ops : List FsOp) : Disk := ops.foldl FsOp.exec disk

/-- `Path::with_extension`: replace the extension of the last component. -/
def withExtension (path ext : String) : String :=
  let dir := path.toList.rdropWhile (· ≠ '/')
  let name := path.toList.rtakeWhile (· ≠ '/')
  -- a dot in front of the name does not start an extension
  let stem := if '.' ∈ name.tail then (name.rdropWhile (· ≠ '.')).dropLast else name
  String.ofList (dir ++ stem) ++ "." ++ ext

/-! ## The persistent log -/

/-- `PersistentEventLog`, with the files it works on. -/
structure PersistentEventLog where
  inner : InMemoryEventLog
  disk : Disk
  path : String
  snapshotOffset : ℕ
deriving DecidableEq

namespace PersistentEventLog

variable (J : JsonCodec EventEnvelope)

/-- One iteration of the replay loop of `open`: blank lines are skipped. -/
def replayLine (lineNo : ℕ) (bytes : Bytes) (log : InMemoryEventLog) :
    Except PiCloudError InMemoryEventLog :=
  match ofUtf8 bytes with
  | none => .error (.internal
      s!"failed to read event log line {lineNo + 1}: stream did not contain valid UTF-8")
  | some text =>
    let trimmed := trim text
    if trimmed = "" then .ok log
    else match J.fromStr trimmed with
      | .error e => .error (.internal s!"failed to deserialize event at line {lineNo + 1}: {e}")
      | .ok event => .ok ((log.recordKey event).push event)

/-- The replay loop of `open`. -/
def replayLines : ℕ → List Bytes → InMemoryEventLog → Except PiCloudError InMemoryEventLog
  | _, [], log => .ok log
  | lineNo, l :: ls, log =>
    match replayLine J lineNo l log with
    | .ok log' => replayLines (lineNo + 1) ls log'
    -- one bad line fails the whole call
    | .error e => .error e

/-- The snapshot offset `open` reads from the sidecar: 0 without one, and 0 if it does not hold a
number. -/
def loadOffset (path : String) (disk : Disk) : Except PiCloudError ℕ :=
  match disk.sidecar with
  | none => .ok 0
  | some bytes =>
    match ofUtf8 bytes with
    | none =>
      let metaPath := withExtension path "jsonl.meta"
      .error (.internal
        s!"failed to read compaction metadata {metaPath}: stream did not contain valid UTF-8")
    -- `parse().unwrap_or(0)`
    | some text => .ok ((parseNat (trim text)).getD 0)

/-- `PersistentEventLog::open`. The log file is created if it is missing; a temporary file left
over by a compaction is not looked at. -/
def openLog (path : String) (disk : Disk) : Except PiCloudError PersistentEventLog := do
  let inner ← match disk.log with
    | some file => replayLines J 0 (lines file) InMemoryEventLog.new
    | none => .ok InMemoryEventLog.new
  let offset ← loadOffset path disk
  return { inner, disk := { disk with log := some (disk.log.getD []) }, path,
           snapshotOffset := offset }

/-- `PersistentEventLog::len`. -/
def len (log : PersistentEventLog) : ℕ := log.inner.len

/-- `PersistentEventLog::total_event_count`. -/
def totalEventCount (log : PersistentEventLog) : ℕ := log.snapshotOffset + log.inner.len

/-- `PersistentEventLog::events_since`: the offset is logical. -/
def eventsSince (log : PersistentEventLog) (offset : ℕ) : List EventEnvelope :=
  let physical := if offset > log.snapshotOffset then offset - log.snapshotOffset else 0
  log.inner.eventsSince physical

/-- The file section of `append`: one line, then a flush. -/
def writeLine (log : PersistentEventLog) (text : String) : PersistentEventLog :=
  { log with disk := FsOp.exec log.disk (.appendLog (line text)) }

/-- The error of `append` on an event that cannot be serialised. -/
def serializeError (event : EventEnvelope) (e : String) : PiCloudError :=
  let id := event.id.display
  .internal s!"failed to serialize event {id}: {e}"

/-- `PersistentEventLog::append`, its sections executed without interruption. -/
def append (log : PersistentEventLog) (event : EventEnvelope) :
    Except PiCloudError Unit × PersistentEventLog :=
  if log.inner.isDuplicate event then (.ok (), log)
  else match J.toString event with
    | .error e => (.error (serializeError event e), log)
    | .ok text =>
      -- the line is on disk before the in-memory log makes its own key check
      let log := log.writeLine text
      (.ok (), { log with inner := log.inner.append event })

/-! ### Compaction -/

/-- `COMPACTION_THRESHOLD`. -/
def compactionThreshold : ℕ := 10000

/-- `COMPACTION_KEEP`. -/
def compactionKeep : ℕ := 1000

/-- The error of `compact` on an inadmissible count. -/
def discardError (discardCount currentLen : ℕ) : PiCloudError :=
  .internal s!"invalid discard_count {discardCount} for log with {currentLen} events"

/-- Section 1 of `compact`: keep what follows the first `discardCount` events. -/
def drain (log : PersistentEventLog) (discardCount : ℕ) : PersistentEventLog :=
  { log with inner := { log.inner with events := log.inner.events.drop discardCount } }

/-- Section 2 of `compact`. -/
def advanceOffset (log : PersistentEventLog) (discardCount : ℕ) : PersistentEventLog :=
  { log with snapshotOffset := log.snapshotOffset + discardCount }

/-- The writes of the remaining events to the temporary file, up to the first one that cannot be
serialised. -/
def lineOps : List EventEnvelope → List FsOp × Except PiCloudError Unit
  | [] => ([], .ok ())
  | event :: events =>
    match J.toString event with
    -- the lines before this one stay in the temporary file
    | .error e => ([], .error (.internal s!"failed to serialize event during compaction: {e}"))
    | .ok text => ((.writeTmp (line text)) :: (lineOps events).1, (lineOps events).2)

/-- The file-system operations of section 3 of `compact`, in order, and its result. -/
def rewriteOps (remaining : List EventEnvelope) (offset : ℕ) :
    List FsOp × Except PiCloudError Unit :=
  match lineOps J remaining with
  | (ops, .error e) => (.createTmp :: ops, .error e)
  | (ops, .ok ()) =>
    (.createTmp :: ops ++ [.renameTmp, .writeSidecar (utf8 (toString offset)), .reopenLog], .ok ())

/-- Section 3 of `compact`, under the file lock: it reads the offset again. -/
def rewrite (log : PersistentEventLog) (remaining : List EventEnvelope) :
    Except PiCloudError Unit × PersistentEventLog :=
  let r := rewriteOps J remaining log.snapshotOffset
  (r.2, { log with disk := FsOp.execAll log.disk r.1 })

/-- `PersistentEventLog::compact`, its sections executed without interruption. -/
def compact (log : PersistentEventLog) (discardCount : ℕ) :
    Except PiCloudError Unit × PersistentEventLog :=
  if discardCount = 0 ∨ discardCount > log.len then
    (.error (discardError discardCount log.len), log)
  else
    let drained := log.drain discardCount
    (drained.advanceOffset discardCount).rewrite J drained.inner.events

/-- `PersistentEventLog::compact_if_needed`. -/
def compactIfNeeded (log : PersistentEventLog) : Except PiCloudError Bool × PersistentEventLog :=
  if log.len > compactionThreshold then
    match log.compact J (log.len - compactionKeep) with
    | (.ok (), log') => (.ok true, log')
    | (.error e, log') => (.error e, log')
  else (.ok false, log)

end PersistentEventLog

end Picloud
