import Picloud.Events.Idempotency
import Picloud.Lib.Pool

/-!
# Concurrent calls on the event logs

A call is a task that executes the lock-protected sections of its source function one at a time;
between two sections any other task may go. `memStep` are the sections of
`InMemoryEventLog::append`, `logStep` those of `PersistentEventLog::append` and
`PersistentEventLog::compact`; `Section` lists what a section can do, and the invariants of the
concurrent log are proved case by case from it. No section changes what finishing its task alone
would lead to (`finish_logStep`), so a call that is executed alone is the sequential function
(`shared_of_alone`).
-/

namespace Picloud

open Lib

/-- How a call ended. -/
inductive Outcome where
  | stored
  | duplicate
  | compacted
  | failed (error : PiCloudError)
  | panicked
deriving DecidableEq

/-- The sections of `InMemoryEventLog::append` still to come. Without a key the check and the record
are no sections of the source; here they are steps that do nothing. -/
inductive MemTask where
  | check (event : EventEnvelope)
  | record (event : EventEnvelope)
  | send (event : EventEnvelope)
  | push (event : EventEnvelope)
  | done (outcome : Outcome)
deriving DecidableEq

/-- One section of `InMemoryEventLog::append`. -/
def memStep (log : InMemoryEventLog) : MemTask → Option (InMemoryEventLog × MemTask)
  | .check e => some (log, if log.isDuplicate e then .done .duplicate else .record e)
  | .record e => some (log.recordKey e, .send e)
  | .send e => some (log.send e, .push e)
  | .push e => some (log.push e, .done .stored)
  | .done _ => none

/-- Concurrent `InMemoryEventLog::append` calls. -/
def memNext : Pool InMemoryEventLog MemTask → Pool.Act EventEnvelope →
    Option (Pool InMemoryEventLog MemTask) :=
  Pool.next MemTask.check memStep

/-- The calls on a persistent log that change it. -/
inductive Call where
  | append (event : EventEnvelope)
  | compact (discardCount : ℕ)
deriving DecidableEq

/-- The sections of `PersistentEventLog::append` and `PersistentEventLog::compact` still to come. -/
inductive Task where
  /-- The first look at `seen_keys`, before anything is written. -/
  | checkKey (event : EventEnvelope)
  /-- The event is serialised; its line is to be written under the file lock. -/
  | writeFile (event : EventEnvelope) (text : String)
  /-- The delegation to the in-memory log. -/
  | inner (task : MemTask)
  /-- `compact` reads the length and checks its argument. -/
  | readLen (discardCount : ℕ)
  | drain (discardCount : ℕ)
  | advance (discardCount : ℕ) (remaining : List EventEnvelope)
  /-- The rewrite of the file, under the file lock. -/
  | rewrite (remaining : List EventEnvelope)
  | done (outcome : Outcome)
deriving DecidableEq

/-- The task of a call. -/
def Call.enter : Call → Task
  | .append e => .checkKey e
  | .compact n => .readLen n

/-- The call has returned. -/
def Task.finished : Task → Bool
  | .done _ | .inner (.done _) => true
  | _ => false

namespace PersistentEventLog

variable (J : JsonCodec EventEnvelope)

/-- One section of `PersistentEventLog::append` or `PersistentEventLog::compact`. -/
def logStep (log : PersistentEventLog) : Task → Option (PersistentEventLog × Task)
  -- serialising holds no lock, so it belongs to the section before it
  | .checkKey e =>
    if log.inner.isDuplicate e then some (log, .done .duplicate)
    else match J.toString e with
      | .error t => some (log, .done (.failed (serializeError e t)))
      | .ok text => some (log, .writeFile e text)
  | .writeFile e text => some (log.writeLine text, .inner (.check e))
  | .inner t =>
    match memStep log.inner t with
    | some (m, t') => some ({ log with inner := m }, .inner t')
    | none => none
  | .readLen n =>
    if n = 0 ∨ n > log.len then some (log, .done (.failed (discardError n log.len)))
    else some (log, .drain n)
  -- `Vec::drain` panics when another compaction has shortened the vector in the meantime
  | .drain n =>
    if n > log.len then some (log, .done .panicked)
    else some (log.drain n, .advance n (log.inner.events.drop n))
  | .advance n remaining => some (log.advanceOffset n, .rewrite remaining)
  | .rewrite remaining =>
    match log.rewrite J remaining with
    | (.ok (), log') => some (log', .done .compacted)
    | (.error e, log') => some (log', .done (.failed e))
  | .done _ => none

/-- Concurrent calls on a persistent log. -/
def logNext : Pool PersistentEventLog Task → Pool.Act Call →
    Option (Pool PersistentEventLog Task) :=
  Pool.next Call.enter (logStep J)

/-! ## What a section does -/

/-- The outcome of the rewrite of the file. -/
def rewriteOutcome : Except PiCloudError Unit → Outcome
  | .ok () => .compacted
  | .error e => .failed e

/-- Everything a section can do, by the task it belongs to and the branch it takes. -/
inductive Section (log : PersistentEventLog) : Task → PersistentEventLog → Task → Prop
  | keySeen {e : EventEnvelope} (hdup : log.inner.isDuplicate e = true) :
    Section log (.checkKey e) log (.done .duplicate)
  | unwritable {e : EventEnvelope} {s : String} (hdup : log.inner.isDuplicate e = false)
    (htext : J.toString e = .error s) :
    Section log (.checkKey e) log (.done (.failed (serializeError e s)))
  | serialised {e : EventEnvelope} {s : String} (hdup : log.inner.isDuplicate e = false)
    (htext : J.toString e = .ok s) : Section log (.checkKey e) log (.writeFile e s)
  | lineWritten {e : EventEnvelope} {s : String} :
    Section log (.writeFile e s) (log.writeLine s) (.inner (.check e))
  | keySeenInside {e : EventEnvelope} (hdup : log.inner.isDuplicate e = true) :
    Section log (.inner (.check e)) log (.inner (.done .duplicate))
  | keyFree {e : EventEnvelope} (hdup : log.inner.isDuplicate e = false) :
    Section log (.inner (.check e)) log (.inner (.record e))
  | keyRecorded {e : EventEnvelope} :
    Section log (.inner (.record e)) { log with inner := log.inner.recordKey e } (.inner (.send e))
  | sent {e : EventEnvelope} :
    Section log (.inner (.send e)) { log with inner := log.inner.send e } (.inner (.push e))
  | pushed {e : EventEnvelope} :
    Section log (.inner (.push e)) { log with inner := log.inner.push e } (.inner (.done .stored))
  | refused {n : ℕ} (hbad : n = 0 ∨ n > log.len) :
    Section log (.readLen n) log (.done (.failed (discardError n log.len)))
  | admitted {n : ℕ} (hgood : ¬ (n = 0 ∨ n > log.len)) : Section log (.readLen n) log (.drain n)
  | overdrawn {n : ℕ} (hlen : n > log.len) : Section log (.drain n) log (.done .panicked)
  | drained {n : ℕ} (hlen : ¬ n > log.len) :
    Section log (.drain n) (log.drain n) (.advance n (log.inner.events.drop n))
  | advanced {n : ℕ} {remaining : List EventEnvelope} :
    Section log (.advance n remaining) (log.advanceOffset n) (.rewrite remaining)
  | rewritten {remaining : List EventEnvelope} :
    Section log (.rewrite remaining) (log.rewrite J remaining).2
      (.done (rewriteOutcome (log.rewrite J remaining).1))

variable {log : PersistentEventLog} {t : Task}

variable {J} in
/-- The inversion lemma, from which the invariants of the concurrent log are derived. -/
theorem section_of_logStep {log' : PersistentEventLog} {t' : Task}
    (h : logStep J log t = some (log', t')) : Section J log t log' t' := by
  cases t with
  | checkKey e =>
    rw [logStep] at h
    split_ifs at h with hdup
    · cases h
      exact .keySeen hdup
    · rw [Bool.not_eq_true] at hdup
      split at h
      · next s hs =>
        cases h
        exact .unwritable hdup hs
      · next s hs =>
        cases h
        exact .serialised hdup hs
  | writeFile e s =>
    cases h
    exact .lineWritten
  | inner t =>
    cases t with
    | check e =>
      simp only [logStep, memStep, Option.some.injEq, Prod.mk.injEq] at h
      obtain ⟨rfl, rfl⟩ := h
      split_ifs with hdup
      · exact .keySeenInside hdup
      · exact .keyFree (Bool.not_eq_true _ ▸ hdup)
    | record e => cases h; exact .keyRecorded
    | send e => cases h; exact .sent
    | push e => cases h; exact .pushed
    | done o => cases h
  | readLen n =>
    rw [logStep] at h
    split_ifs at h with hbad
    · cases h
      exact .refused hbad
    · cases h
      exact .admitted hbad
  | drain n =>
    rw [logStep] at h
    split_ifs at h with hlen
    · cases h
      exact .overdrawn hlen
    · cases h
      exact .drained hlen
  | advance n remaining =>
    cases h
    exact .advanced
  | rewrite remaining =>
    have hrewritten : Section J log (.rewrite remaining) _ _ := .rewritten
    rw [logStep] at h
    split at h
    · next log'' hr =>
      rw [hr] at hrewritten
      cases h
      exact hrewritten
    · next e log'' hr =>
      rw [hr] at hrewritten
      cases h
      exact hrewritten
  | done o => cases h

/-! ## Finishing a task alone -/

/-- The log after a call of the sequential functions. -/
def callAlone (log : PersistentEventLog) : Call → PersistentEventLog
  | .append e => (log.append J e).2
  | .compact n => (log.compact J n).2

/-- The log after the rest of an in-memory append, undisturbed. -/
def memFinish (log : InMemoryEventLog) : MemTask → InMemoryEventLog
  | .check e => log.append e
  | .record e => ((log.recordKey e).send e).push e
  | .send e => (log.send e).push e
  | .push e => log.push e
  | .done _ => log

/-- The log after the rest of a call, undisturbed. -/
def finish (log : PersistentEventLog) : Task → PersistentEventLog
  | .checkKey e => (log.append J e).2
  | .writeFile e text =>
    { log.writeLine text with inner := log.inner.append e }
  | .inner t => { log with inner := memFinish log.inner t }
  | .readLen n => (log.compact J n).2
  | .drain n =>
    if n > log.len then log
    else (((log.drain n).advanceOffset n).rewrite J (log.inner.events.drop n)).2
  | .advance n remaining => ((log.advanceOffset n).rewrite J remaining).2
  | .rewrite remaining => (log.rewrite J remaining).2
  | .done _ => log

variable {J}

/-- A section leads its task to where finishing it alone would have led. -/
theorem finish_logStep {log' : PersistentEventLog} {t' : Task}
    (h : logStep J log t = some (log', t')) : finish J log' t' = finish J log t := by
  cases section_of_logStep h with
  | keySeen hdup => rw [finish, finish, append, if_pos hdup]
  | unwritable hdup htext =>
    rw [finish, finish, append, hdup, htext]
    rfl
  | serialised hdup htext =>
    rw [finish, finish, append, hdup, htext]
    rfl
  | lineWritten => rfl
  | keySeenInside hdup =>
    rw [finish, finish, memFinish, memFinish, InMemoryEventLog.append, if_pos hdup]
  | keyFree hdup =>
    rw [finish, finish, memFinish, memFinish, InMemoryEventLog.append, hdup]
    rfl
  | keyRecorded => rfl
  | sent => rfl
  | pushed => rfl
  | refused hbad => rw [finish, finish, compact, if_pos hbad]
  | admitted hgood =>
    rw [finish, finish, compact, if_neg hgood, if_neg fun hn => hgood (Or.inr hn)]
    rfl
  | overdrawn hlen => rw [finish, finish, if_pos hlen]
  | drained hlen => rw [finish, finish, if_neg hlen]
  | advanced => rfl
  | rewritten => rfl

theorem finish_enter (log : PersistentEventLog) (c : Call) :
    finish J log c.enter = log.callAlone J c := by
  cases c <;> rfl

theorem finish_of_finished (h : t.finished = true) :
    finish J log t = log := by
  cases t with
  | done o => rfl
  | inner t =>
    cases t with
    | done o => rfl
    | check e => cases h
    | record e => cases h
    | send e => cases h
    | push e => cases h
  | checkKey e => cases h
  | writeFile e s => cases h
  | readLen n => cases h
  | drain n => cases h
  | advance n r => cases h
  | rewrite r => cases h

/-- A task that is executed alone to its end leaves what finishing it leaves. -/
theorem finish_of_alone {k : ℕ} {p : Pool PersistentEventLog Task}
    (hrun : runSteps (logNext J) ⟨log, [t]⟩ (List.replicate k (.step 0)) = some p)
    (hdone : ∀ t ∈ p.tasks, t.finished = true) : p.shared = finish J log t := by
  obtain ⟨t', htasks, hfinish⟩ :=
    Pool.finish_of_alone (fun _ _ _ _ hstep => finish_logStep hstep) hrun
  rw [← hfinish, finish_of_finished (hdone t' (by rw [htasks]; exact List.mem_singleton_self t'))]

/-- A call that is executed alone to its end leaves what the sequential call leaves. -/
theorem shared_of_alone {c : Call} {k : ℕ} {p : Pool PersistentEventLog Task}
    (hrun : runSteps (logNext J) ⟨log, [c.enter]⟩ (List.replicate k (.step 0)) = some p)
    (hdone : ∀ t ∈ p.tasks, t.finished = true) :
    p.shared = log.callAlone J c :=
  (finish_of_alone hrun hdone).trans (finish_enter log c)

end PersistentEventLog

end Picloud
