import Picloud.Events.Concurrent

/-!
# Disk and memory under concurrent calls

`append` writes its line in one section and stores its event in a later one, so in the middle of
calls the file is `Ahead` of memory by the events that are still to be stored; `compact` shortens
memory in one section and the file in a later one. The two come apart for good when an event is
stored out of the order of the lines, when a line is written for an event that the second key check
then drops, and when the file is rewritten with a copy of memory that is out of date. In every
schedule without such a section they agree whenever no call is in progress.
-/

namespace Picloud

open Lib

/-- The event of an append that has written its line and not yet stored the event. -/
def Task.pending : Task → Option EventEnvelope
  | .inner (.check e) | .inner (.record e) | .inner (.send e) | .inner (.push e) => some e
  | _ => none

/-- A compaction that has shortened memory and not yet rewritten the file. -/
def Task.rewriting : Task → Bool
  | .advance _ _ | .rewrite _ => true
  | _ => false

theorem Task.pending_of_finished {t : Task} (h : t.finished = true) : t.pending = none := by
  unfold Task.finished at h
  split at h
  · rfl
  · rfl
  · cases h

theorem Task.rewriting_of_finished {t : Task} (h : t.finished = true) : t.rewriting = false := by
  unfold Task.finished at h
  split at h
  · rfl
  · rfl
  · cases h

namespace PersistentEventLog

section

variable (J : JsonCodec EventEnvelope)

/-- The next section of the task keeps file and memory together: the second key check does not drop
an event whose line is written, an event is stored when its line is the next one of the file, and
the file is rewritten with what memory holds while no line is waiting for its event. -/
def KeepsTogether (log : PersistentEventLog) (tasks : List Task) : Task → Prop
  | .inner (.check e) => log.inner.isDuplicate e = false
  | .inner (.push e) =>
    (lines (log.disk.log.getD []))[log.inner.events.length]? = some (utf8 (J.text e))
  | .rewrite remaining => remaining = log.inner.events ∧ tasks.filterMap Task.pending = []
  | _ => True

/-- The section keeps file and memory together, or another compaction has yet to rewrite the
file. -/
def InFileOrder (p : Pool PersistentEventLog Task) : Pool.Act Call → Prop
  | .call _ => True
  | .step i => ∀ t, p.tasks[i]? = some t →
      (p.tasks.eraseIdx i).any Task.rewriting = true ∨ KeepsTogether J p.shared p.tasks t

/-- The file holds the events in memory and after them those of `order`. -/
structure Ahead (log : PersistentEventLog) (order : List EventEnvelope) : Prop where
  writes : ∀ e ∈ log.inner.events ++ order, J.Writes e
  file : log.disk.log = some (render J (log.inner.events ++ order))
  sidecar : loadOffset log.path log.disk = .ok log.snapshotOffset

/-- The events a task works with can be serialised. -/
def TaskOk : Task → Prop
  | .writeFile e text => J.toString e = .ok text
  | .inner (.check e) | .inner (.record e) | .inner (.send e) | .inner (.push e) => J.Writes e
  | _ => True

end

variable {J : JsonCodec EventEnvelope}

variable {log log' : PersistentEventLog} {t t' : Task}

theorem Clean.ahead (h : Clean J log) : Ahead J log [] :=
  ⟨by simpa using h.writes, by simpa using h.file, h.sidecar⟩

theorem Ahead.clean (h : Ahead J log []) : Clean J log :=
  ⟨by simpa using h.writes, by simpa using h.file, h.sidecar⟩

/-- The lines of a written file are the texts of its events. -/
theorem lines_render {es : List EventEnvelope} (h : ∀ e ∈ es, J.Writes e) :
    lines (render J es) = es.map fun e => utf8 (J.text e) := by
  induction es with
  | nil => rfl
  | cons e es ih =>
    have he : J.Writes e := h e List.mem_cons_self
    rw [render_cons, lines_line_append (J.isLine he.toString_eq).1, List.map_cons,
      ih fun e' he' => h e' (List.mem_cons_of_mem e he')]

/-- The text whose line is the next one of the file is that of the first event still to be
stored. -/
theorem Ahead.order_of_next {order : List EventEnvelope} (h : Ahead J log order) {e : EventEnvelope}
    (hnext : (lines (log.disk.log.getD []))[log.inner.events.length]? = some (utf8 (J.text e))) :
    ∃ e' rest, order = e' :: rest ∧ J.text e' = J.text e := by
  rw [h.file, Option.getD_some, lines_render h.writes, List.map_append,
    List.getElem?_append_right (by simp)] at hnext
  cases order with
  | nil => simp at hnext
  | cons e' rest =>
    have htext : utf8 (J.text e') = utf8 (J.text e) := by simpa using hnext
    refine ⟨e', rest, rfl, ?_⟩
    have := congrArg ofUtf8 htext
    rwa [ofUtf8_utf8, ofUtf8_utf8, Option.some.injEq] at this

theorem logStep_taskOk (h : logStep J log t = some (log', t')) (hok : TaskOk J t) : TaskOk J t' := by
  cases section_of_logStep h with
  | serialised hdup htext => exact htext
  | lineWritten => exact ⟨_, hok⟩
  | keyFree hdup => exact hok
  | keyRecorded => exact hok
  | sent => exact hok
  | _ => trivial

/-- One section of a task that is no compaction between memory and file and does not become one:
what is still to be stored changes as what the task has written and not stored, text by text. -/
theorem Ahead.logStep {order : List EventEnvelope} {tasks : List Task} (h : Ahead J log order)
    (hstep : logStep J log t = some (log', t')) (hok : TaskOk J t)
    (hkeep : KeepsTogether J log tasks t) (hnot : t.rewriting = false)
    (hnot' : t'.rewriting = false) :
    ∃ order', Ahead J log' order' ∧
      ((t.pending.toList ++ order').map J.text).Perm ((t'.pending.toList ++ order).map J.text) := by
  cases section_of_logStep hstep with
  | @lineWritten e text =>
    have htext : J.text e = text := by
      have : J.toString e = .ok text := hok
      rw [JsonCodec.text, this]
    refine ⟨order ++ [e], ⟨?_, ?_, h.sidecar⟩, (List.perm_append_singleton e order).map J.text⟩
    · intro e' he'
      rw [← List.append_assoc, List.mem_append, List.mem_singleton] at he'
      rcases he' with he' | rfl
      · exact h.writes e' he'
      · exact ⟨text, hok⟩
    · simp only [writeLine, FsOp.exec, h.file, Option.getD_some]
      rw [← List.append_assoc, render_append J (log.inner.events ++ order), render_singleton, htext]
  | keySeenInside hdup =>
    -- the condition rules out that a written line is dropped
    have hfree : log.inner.isDuplicate _ = false := hkeep
    rw [hdup] at hfree
    cases hfree
  | keyRecorded =>
    refine ⟨order, ⟨?_, ?_, h.sidecar⟩, .refl _⟩
    · simpa using h.writes
    · simpa using h.file
  | sent => exact ⟨order, ⟨h.writes, h.file, h.sidecar⟩, .refl _⟩
  | pushed =>
    obtain ⟨e', rest, rfl, htext⟩ := h.order_of_next hkeep
    refine ⟨rest, ⟨?_, ?_, h.sidecar⟩, ?_⟩
    · intro f hf
      simp only [InMemoryEventLog.push_events, List.append_assoc, List.singleton_append,
        List.mem_append, List.mem_cons] at hf
      rcases hf with hf | rfl | hf
      · exact h.writes f (by simp [hf])
      · exact hok
      · exact h.writes f (by simp [hf])
    · rw [h.file]
      simp [render_append, render_cons, htext]
    · simp [Task.pending, htext]
  | drained hlen => cases hnot'
  | advanced => cases hnot
  | rewritten => cases hnot
  | _ => exact ⟨order, h, .refl _⟩

/-- What rewrites nothing in its next section and is a compaction between memory and file is one
afterwards too. -/
theorem rewriting_logStep (hstep : logStep J log t = some (log', t')) (h : t.rewriting = true) :
    t'.rewriting = true ∨ ∃ remaining, t = .rewrite remaining := by
  cases section_of_logStep hstep with
  | advanced => exact Or.inl rfl
  | rewritten => exact Or.inr ⟨_, rfl⟩
  | _ => cases h

/-- The rewrite with what memory holds. -/
theorem ahead_rewrite {remaining : List EventEnvelope}
    (hstep : logStep J log (.rewrite remaining) = some (log', t'))
    (hw : ∀ e ∈ log.inner.events, J.Writes e) (hsame : remaining = log.inner.events) :
    Ahead J log' [] ∧ t'.pending = none := by
  subst hsame
  have hclean := clean_rewrite hw
  cases section_of_logStep hstep
  exact ⟨hclean.ahead, rfl⟩

/-- Stored events come from lines or were there before. -/
theorem writes_logStep (hstep : logStep J log t = some (log', t')) (hok : TaskOk J t)
    (hw : ∀ e ∈ log.inner.events, J.Writes e) : ∀ e ∈ log'.inner.events, J.Writes e := by
  cases section_of_logStep hstep with
  | keyRecorded => simpa using hw
  | pushed =>
    intro e he
    rw [InMemoryEventLog.push_events, List.mem_append, List.mem_singleton] at he
    rcases he with he | rfl
    · exact hw e he
    · exact hok
  | drained hlen => exact fun e he => hw e (List.mem_of_mem_drop he)
  | _ => exact hw

variable (J) in
/-- The invariant: every event can be serialised, and while no compaction has yet to rewrite the
file, the file is ahead of memory by the events of the appends in progress. -/
structure Together (p : Pool PersistentEventLog Task) : Prop where
  tasksOk : ∀ t ∈ p.tasks, TaskOk J t
  writes : ∀ e ∈ p.shared.inner.events, J.Writes e
  ahead : p.tasks.any Task.rewriting = true ∨
    ∃ order, (order.map J.text).Perm ((p.tasks.filterMap Task.pending).map J.text) ∧
      Ahead J p.shared order

theorem together_logNext {p p' : Pool PersistentEventLog Task} {a : Pool.Act Call}
    (hinv : Together J p) (hord : InFileOrder J p a) (h : logNext J p a = some p') :
    Together J p' := by
  rcases Pool.next_cases h with ⟨c, rfl, rfl⟩ | ⟨i, t, log', t', rfl, ht, hstep, rfl⟩
  · have hok : TaskOk J c.enter := by cases c <;> trivial
    have hpend : [c.enter].filterMap Task.pending = [] := by cases c <;> rfl
    refine ⟨?_, hinv.writes, ?_⟩
    · intro u hu
      rcases List.mem_append.mp hu with hu | hu
      · exact hinv.tasksOk u hu
      · rw [List.mem_singleton.mp hu]
        exact hok
    · rcases hinv.ahead with hrew | ⟨order, hperm, hahead⟩
      · refine Or.inl ?_
        rw [List.any_append, hrew, Bool.true_or]
      · refine Or.inr ⟨order, ?_, hahead⟩
        rwa [List.filterMap_append, hpend, List.append_nil]
  · have hokt : TaskOk J t := hinv.tasksOk t (List.mem_of_getElem? ht)
    refine ⟨?_, writes_logStep hstep hokt hinv.writes, ?_⟩
    · intro u hu
      rcases Pool.mem_set_imp hu with rfl | hu
      · exact logStep_taskOk hstep hokt
      · exact hinv.tasksOk u hu
    -- a compaction elsewhere, or this task becoming one, leaves nothing to show
    show (p.tasks.set i t').any Task.rewriting = true ∨ _
    rw [Pool.any_set ht]
    cases hother : (p.tasks.eraseIdx i).any Task.rewriting with
    | true => exact Or.inl (by simp)
    | false =>
      cases hrew' : t'.rewriting with
      | true => exact Or.inl rfl
      | false =>
        have hkeep : KeepsTogether J p.shared p.tasks t := by
          rcases hord t ht with hrew | hkeep
          · rw [hother] at hrew
            cases hrew
          · exact hkeep
        have hperm' := Pool.filterMap_set_perm ht t' Task.pending
        cases hrew : t.rewriting with
        | true =>
          rcases rewriting_logStep hstep hrew with hr | ⟨remaining, rfl⟩
          · rw [hr] at hrew'
            cases hrew'
          · obtain ⟨hahead, hnone⟩ := ahead_rewrite hstep hinv.writes hkeep.1
            refine Or.inr ⟨[], ?_, hahead⟩
            rw [hnone, hkeep.2] at hperm'
            exact (hperm'.map J.text).symm
        | false =>
          rcases hinv.ahead with hany | ⟨order, hperm, hahead⟩
          · rw [Pool.any_eraseIdx ht, hrew, hother] at hany
            cases hany
          · obtain ⟨order', hahead', hdiff⟩ := hahead.logStep hstep hokt hkeep hrew hrew'
            refine Or.inr ⟨order', ?_, hahead'⟩
            rw [List.map_append, List.map_append] at hdiff
            have hpending := hperm'.map J.text
            rw [List.map_append, List.map_append] at hpending
            exact (List.perm_append_left_iff _).mp
              ((hdiff.trans (hperm.append_left _)).trans hpending.symm)

/-- **Disk and memory agree between calls.** Start from any log that sequential use leads to, with
restarts and crashes, and let any number of `append` and `compact` calls interleave, each section in
file order. Whenever no call is in progress, the file holds the lines of the events in memory in the
same order, and a restart succeeds and changes neither the events nor `events_since` nor the total
count if and only if each of these events reads back from its line. -/
theorem disk_agrees_of_inFileOrder (J : JsonCodec EventEnvelope) (log₀ : PersistentEventLog)
    (hreach : ReachedRereading J log₀) (acts : List (Pool.Act Call)) (p : Pool PersistentEventLog Task)
    (hmeet : StepsMeet (logNext J) (InFileOrder J) ⟨log₀, []⟩ acts)
    (hrun : runSteps (logNext J) ⟨log₀, []⟩ acts = some p)
    (hquiet : ∀ t ∈ p.tasks, t.finished = true) :
    p.shared.disk.log = some (render J p.shared.inner.events) ∧
    ((∃ log', openLog J p.shared.path p.shared.disk = .ok log' ∧
      log'.inner.events = p.shared.inner.events ∧
      (∀ n, log'.eventsSince n = p.shared.eventsSince n) ∧
      log'.totalEventCount = p.shared.totalEventCount) ↔
      ∀ e ∈ p.shared.inner.events, J.ReadsBack e) := by
  have hstart : Together J ⟨log₀, []⟩ :=
    ⟨by simp, hreach.clean.writes, Or.inr ⟨[], .refl _, hreach.clean.ahead⟩⟩
  have hinv : Together J p :=
    runSteps_invariant (logNext J) (fun _ _ _ hs hc hstep => together_logNext hs hc hstep)
      acts _ _ hstart hmeet hrun
  have hclean : Clean J p.shared := by
    rcases hinv.ahead with hrew | ⟨order, hperm, hahead⟩
    · obtain ⟨t, ht, htrew⟩ := List.any_eq_true.mp hrew
      rw [Task.rewriting_of_finished (hquiet t ht)] at htrew
      cases htrew
    · have hnone : p.tasks.filterMap Task.pending = [] :=
        List.filterMap_eq_nil_iff.mpr fun t ht => Task.pending_of_finished (hquiet t ht)
      rw [hnone, List.map_nil, List.perm_nil, List.map_eq_nil_iff] at hperm
      exact (hperm ▸ hahead).clean
  have hevents : (replayed p.shared.inner.events InMemoryEventLog.new).events =
      p.shared.inner.events := replayed_events _ _
  refine ⟨hclean.file, ?_, fun hread => ?_⟩
  · rintro ⟨log', hopen, hsame, -⟩
    exact (openLog_render_events hclean.writes hclean.file hclean.sidecar hopen).2.2 hsame
  refine ⟨_, hclean.openLog_eq hread, hevents, fun n => ?_, ?_⟩
  · rw [eventsSince_eq_eventsFrom, eventsSince_eq_eventsFrom, eventsFrom, eventsFrom, hevents]
  · simp only [totalEventCount, InMemoryEventLog.len, hevents]

theorem inFileOrder_step {p : Pool PersistentEventLog Task} {i : ℕ} (ht : p.tasks[i]? = some t)
    (hkeep : KeepsTogether J p.shared p.tasks t) :
    InFileOrder J p (.step i) := by
  intro u hu
  rw [ht, Option.some.injEq] at hu
  exact Or.inr (hu ▸ hkeep)

/-- Two appends whose sections overlap, stored in the order of their lines. -/
def overlapping : List (Pool.Act Call) :=
  [.call (.append (nodeJoined 1 none)), .call (.append (nodeJoined 2 none)),
    .step 0, .step 1, .step 0, .step 1, .step 0, .step 1, .step 1, .step 0, .step 0, .step 0,
    .step 1, .step 1]

/-- The same two appends, the second one stored first. -/
def overtaking : List (Pool.Act Call) :=
  [.call (.append (nodeJoined 1 none)), .call (.append (nodeJoined 2 none)),
    .step 0, .step 0, .step 1, .step 1, .step 1, .step 1, .step 1, .step 1,
    .step 0, .step 0, .step 0, .step 0]

/-- The file after the lines of both events. -/
theorem file_both (path : String) :
    (((fresh path).writeLine (sampleCodec.text (nodeJoined 1 none))).writeLine
      (sampleCodec.text (nodeJoined 2 none))).disk.log =
      some (render sampleCodec [nodeJoined 1 none, nodeJoined 2 none]) := by
  simp [writeLine, FsOp.exec, fresh, render]

theorem writes_both : ∀ e ∈ [nodeJoined 1 none, nodeJoined 2 none], sampleCodec.Writes e := by
  simp only [List.forall_mem_cons]
  exact ⟨⟨_, rfl⟩, ⟨_, rfl⟩, by simp⟩

/-- File and memory agree after two appends whose sections overlap, and a restart finds the same
events. -/
theorem disk_agrees_overlapping :
    ∃ p, runSteps (logNext sampleCodec) ⟨fresh "events.jsonl", []⟩ overlapping = some p ∧
      p.shared.disk.log = some (render sampleCodec p.shared.inner.events) ∧
      ∃ log', openLog sampleCodec p.shared.path p.shared.disk = .ok log' ∧
        log'.inner.events = p.shared.inner.events := by
  have hnext : ∀ (i : ℕ) (e : EventEnvelope),
      [nodeJoined 1 none, nodeJoined 2 none][i]? = some e →
      (lines ((((fresh "events.jsonl").writeLine (sampleCodec.text (nodeJoined 1 none))).writeLine
        (sampleCodec.text (nodeJoined 2 none))).disk.log.getD []))[i]? =
          some (utf8 (sampleCodec.text e)) := by
    intro i e he
    rw [file_both, Option.getD_some, lines_render writes_both, List.getElem?_map, he]
    rfl
  have hmeet : StepsMeet (logNext sampleCodec) (InFileOrder sampleCodec)
      ⟨fresh "events.jsonl", []⟩ overlapping := by
    refine ⟨trivial, trivial, inFileOrder_step rfl trivial, inFileOrder_step rfl trivial,
      inFileOrder_step rfl trivial, inFileOrder_step rfl trivial, inFileOrder_step rfl rfl,
      inFileOrder_step rfl rfl, inFileOrder_step rfl trivial, inFileOrder_step rfl trivial,
      inFileOrder_step rfl trivial, inFileOrder_step rfl ?_, inFileOrder_step rfl trivial,
      inFileOrder_step rfl ?_, trivial⟩
    · exact hnext 0 _ rfl
    · exact hnext 1 _ rfl
  obtain ⟨hfile, hrestart⟩ := disk_agrees_of_inFileOrder sampleCodec _
    ⟨"events.jsonl", [], trivial, rfl⟩ overlapping _ hmeet rfl (by decide +kernel)
  obtain ⟨log', hopen, hevents, -⟩ := hrestart.mpr fun e he =>
    sampleCodec.readsBack (writes_both e he)
  exact ⟨_, rfl, hfile, log', hopen, hevents⟩

/-- Once the second append overtakes the first between file and memory, a restart reorders the
events. -/
theorem overtaking_reorders :
    ∃ p, runSteps (logNext sampleCodec) ⟨fresh "events.jsonl", []⟩ overtaking = some p ∧
      (∀ t ∈ p.tasks, t.finished = true) ∧
      p.shared.inner.events = [nodeJoined 2 none, nodeJoined 1 none] ∧
      ∃ log', openLog sampleCodec p.shared.path p.shared.disk = .ok log' ∧
        log'.inner.events = [nodeJoined 1 none, nodeJoined 2 none] ∧
        log'.eventsSince 1 ≠ p.shared.eventsSince 1 := by
  exact ⟨_, rfl, by decide +kernel, rfl, _,
    openLog_of_render (fun e he => sampleCodec.readsBack (writes_both e he)) (file_both "events.jsonl") rfl, rfl, by decide +kernel⟩

end PersistentEventLog

end Picloud
