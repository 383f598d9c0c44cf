import Picloud.Events.Recovery

/-!
# A crash inside a compaction

`compact` replaces two files by two operations: the rename puts the shortened log in place, the
sidecar write then records how many events are gone. `crashDisk` is what the disk holds when the
process stops after some number of file-system operations, and reopening it keeps the logical
offsets exactly when the stop does not fall between those two and the events in the file read back.
Wherever it falls, a log reopened with events that read back is clean again, so the states of a log
are those that calls, restarts and such crashes lead to (`ReachedRereading`, and `Reachable` where
every event reads back).
-/

namespace Picloud

open Lib

namespace PersistentEventLog

variable (J : JsonCodec EventEnvelope)

/-- The events at logical offset `n` and above. -/
def eventsFrom (log : PersistentEventLog) (n : ℕ) : List EventEnvelope :=
  log.inner.events.drop (n - log.snapshotOffset)

/-- `events_since` answers in logical offsets. -/
theorem eventsSince_eq_eventsFrom (log : PersistentEventLog) (n : ℕ) :
    log.eventsSince n = log.eventsFrom n := by
  rw [eventsSince, InMemoryEventLog.eventsSince_eq_drop, eventsFrom]
  congr 1
  split_ifs <;> omega

/-- The disk when the process stops after the first `j` file-system operations of
`compact discardCount`. -/
def crashDisk (log : PersistentEventLog) (discardCount j : ℕ) : Disk :=
  FsOp.execAll log.disk ((rewriteOps J (log.inner.events.drop discardCount)
    (log.snapshotOffset + discardCount)).1.take j)

/-- Seen from `log'`, the events of `log` are where they were, and none is missing at the end. -/
def KeepsOffsets (log log' : PersistentEventLog) : Prop :=
  (∀ n ≥ log'.snapshotOffset, log'.eventsSince n = log.eventsFrom n) ∧
    log'.totalEventCount = log.totalEventCount

variable {J}

/-- The operations before the rename work on the temporary file only. -/
theorem execAll_take_tmp (es : List EventEnvelope) (disk : Disk) (j : ℕ) :
    (FsOp.execAll disk ((.createTmp :: es.map fun e => .writeTmp (line (J.text e))).take j)).log =
        disk.log ∧
      (FsOp.execAll disk
        ((.createTmp :: es.map fun e => .writeTmp (line (J.text e))).take j)).sidecar =
        disk.sidecar := by
  cases j with
  | zero => exact ⟨rfl, rfl⟩
  | succ j =>
    rw [List.take_succ_cons, ← List.map_take]
    have hcreate : FsOp.execAll disk (.createTmp ::
        (es.take j).map fun e => .writeTmp (line (J.text e))) =
        FsOp.execAll { disk with tmp := some [] }
          ((es.take j).map fun e => .writeTmp (line (J.text e))) := rfl
    rw [hcreate, execAll_writeTmp (es.take j) _ [] rfl]
    exact ⟨rfl, rfl⟩

variable {j n : ℕ} {log : PersistentEventLog}

/-- Before the rename the log file and the sidecar are the old ones. -/
theorem crashDisk_before_rename (h : Clean J log) (hj : j ≤ (log.inner.events.drop n).length + 1) :
    (crashDisk J log n j).log = log.disk.log ∧
      (crashDisk J log n j).sidecar = log.disk.sidecar := by
  have hw : ∀ e ∈ log.inner.events.drop n, J.Writes e :=
    fun e he => h.writes e (List.mem_of_mem_drop he)
  rw [crashDisk, rewriteOps_of_writes hw, List.take_append_of_le_length (by simpa using hj)]
  exact execAll_take_tmp _ _ _

/-- Between the rename and the sidecar write the log file is the new one, the sidecar the old. -/
theorem crashDisk_after_rename (h : Clean J log) (hj : j = (log.inner.events.drop n).length + 2) :
    crashDisk J log n j =
      ⟨some (render J (log.inner.events.drop n)), none, log.disk.sidecar⟩ := by
  have hw : ∀ e ∈ log.inner.events.drop n, J.Writes e :=
    fun e he => h.writes e (List.mem_of_mem_drop he)
  have hcreate : ∀ ops, FsOp.execAll log.disk (.createTmp :: ops) =
      FsOp.execAll { log.disk with tmp := some [] } ops := fun _ => rfl
  rw [crashDisk, rewriteOps_of_writes hw, List.take_append, List.take_of_length_le (by simp [hj]),
    show j - (FsOp.createTmp :: (log.inner.events.drop n).map
      fun e => FsOp.writeTmp (line (J.text e))).length = 1 from by simp [hj],
    List.cons_append, hcreate, execAll_append, execAll_writeTmp _ _ [] rfl]
  rfl

/-- From the sidecar write on both files are the new ones. -/
theorem crashDisk_after_sidecar (h : Clean J log) (hj : j ≥ (log.inner.events.drop n).length + 3) :
    crashDisk J log n j =
      ⟨some (render J (log.inner.events.drop n)), none,
        some (utf8 (toString (log.snapshotOffset + n)))⟩ := by
  have hw : ∀ e ∈ log.inner.events.drop n, J.Writes e :=
    fun e he => h.writes e (List.mem_of_mem_drop he)
  rw [← execAll_rewriteOps hw (log.snapshotOffset + n) log.disk, crashDisk,
    rewriteOps_of_writes hw]
  -- what may still be missing is the reopening, which writes nothing
  rcases Nat.lt_or_ge j ((log.inner.events.drop n).length + 4) with hlt | hge
  · obtain rfl : j = (log.inner.events.drop n).length + 3 := by omega
    have hsplit : ∀ ops : List FsOp, ops ++ [.renameTmp,
        .writeSidecar (utf8 (toString (log.snapshotOffset + n))), .reopenLog] =
        (ops ++ [.renameTmp, .writeSidecar (utf8 (toString (log.snapshotOffset + n)))]) ++
          [.reopenLog] := by simp
    simp only [hsplit]
    rw [List.take_left' (by simp), execAll_append _ _ [FsOp.reopenLog]]
    rfl
  · rw [List.take_of_length_le]
    simp only [List.length_append, List.length_cons, List.length_map, List.length_nil]
    omega

/-- The events and the offset that the files hold, by the place of the stop. -/
def crashContents (log : PersistentEventLog) (n j : ℕ) : List EventEnvelope × ℕ :=
  if j ≤ (log.inner.events.drop n).length + 1 then (log.inner.events, log.snapshotOffset)
  else if j = (log.inner.events.drop n).length + 2 then
    (log.inner.events.drop n, log.snapshotOffset)
  else (log.inner.events.drop n, log.snapshotOffset + n)

theorem crashDisk_contents (h : Clean J log) (n j : ℕ) :
    (∀ e ∈ (crashContents log n j).1, J.Writes e) ∧
    (crashDisk J log n j).log = some (render J (crashContents log n j).1) ∧
    loadOffset log.path (crashDisk J log n j) = .ok (crashContents log n j).2 := by
  have hw : ∀ e ∈ log.inner.events.drop n, J.Writes e :=
    fun e he => h.writes e (List.mem_of_mem_drop he)
  rw [crashContents]
  split_ifs with hbefore hbetween
  · obtain ⟨hlog, hside⟩ := crashDisk_before_rename h hbefore
    refine ⟨h.writes, hlog.trans h.file, ?_⟩
    rw [← h.sidecar, loadOffset, loadOffset, hside]
  · have hdisk := crashDisk_after_rename h hbetween
    refine ⟨hw, by rw [hdisk], ?_⟩
    rw [← h.sidecar, loadOffset, loadOffset, hdisk]
  · have hdisk := crashDisk_after_sidecar h (n := n) (j := j) (by omega)
    exact ⟨hw, by rw [hdisk], loadOffset_of_text (by rw [hdisk])⟩

/-- The log that reopening finds. -/
theorem openLog_crashDisk (h : Clean J log) (n j : ℕ)
    (hread : ∀ e ∈ (crashContents log n j).1, J.ReadsBack e) :
    openLog J log.path (crashDisk J log n j) =
      .ok ⟨replayed (crashContents log n j).1 InMemoryEventLog.new, crashDisk J log n j, log.path,
        (crashContents log n j).2⟩ := by
  obtain ⟨-, hlog, hoff⟩ := crashDisk_contents h n j
  exact openLog_of_render hread hlog hoff

/-! ## The states of a log -/

/-- A call or a restart, or a crash after `j` file-system operations of a compaction and the restart
that follows it. -/
inductive LifeStep where
  | op (op : Op)
  | crash (discardCount j : ℕ)
deriving DecidableEq

variable (J) in
/-- One step in the life of a log. -/
def live (log : PersistentEventLog) : LifeStep → Option PersistentEventLog
  | .op op => opStep J log op
  | .crash discardCount j =>
    if discardCount = 0 ∨ discardCount > log.len then none
    else match openLog J log.path (crashDisk J log discardCount j) with
      | .ok log' => some log'
      | .error _ => none

variable (J) in
/-- The states that a log opened where there were no files is led to by calls made one after
another, restarts, and crashes inside compactions. -/
def Reachable (log : PersistentEventLog) : Prop :=
  ∃ path steps, runSteps (live J) (fresh path) steps = some log

variable (J) in
/-- A restart, also the one after a crash, finds events in the file that read back. -/
def Rereads (log : PersistentEventLog) : LifeStep → Prop
  | .op op => RestartReads J log op
  | .crash discardCount j => ∀ e ∈ (crashContents log discardCount j).1, J.ReadsBack e

variable (J) in
/-- The states that such steps lead to while every restart finds events that read back. -/
def ReachedRereading (log : PersistentEventLog) : Prop :=
  ∃ path steps, StepsMeet (live J) (Rereads J) (fresh path) steps ∧
    runSteps (live J) (fresh path) steps = some log

/-- What a step can do: a call or a restart, or a restart with what a crash has left. -/
theorem live_cases {log' : PersistentEventLog} {step : LifeStep} (h : Clean J log)
    (hread : Rereads J log step) (hstep : live J log step = some log') :
    (∃ op, RestartReads J log op ∧ opStep J log op = some log') ∨
    ∃ n j, log' = ⟨replayed (crashContents log n j).1 InMemoryEventLog.new, crashDisk J log n j,
      log.path, (crashContents log n j).2⟩ := by
  cases step with
  | op op => exact Or.inl ⟨op, hread, hstep⟩
  | crash n j =>
    rw [live, openLog_crashDisk h n j hread] at hstep
    split_ifs at hstep
    exact Or.inr ⟨n, j, (Option.some.inj hstep).symm⟩

theorem Clean.live {log' : PersistentEventLog} {step : LifeStep} (h : Clean J log)
    (hread : Rereads J log step) (hstep : live J log step = some log') : Clean J log' := by
  rcases live_cases h hread hstep with ⟨op, hread', hop⟩ | ⟨n, j, rfl⟩
  · exact h.opStep hread' hop
  · obtain ⟨hw, hlog, hoff⟩ := crashDisk_contents h n j
    exact clean_of_render hw hlog hoff

theorem ReachedRereading.clean (h : ReachedRereading J log) : Clean J log := by
  obtain ⟨path, steps, hmeet, hrun⟩ := h
  exact runSteps_invariant _ (fun _ _ _ hc hread hstep => hc.live hread hstep) steps _ _
    (clean_fresh path) hmeet hrun

/-- Where every value reads back, every restart finds events that do. -/
theorem Reachable.rereading {J : RoundTripCodec EventEnvelope} (h : Reachable J log) :
    ReachedRereading J log := by
  have hread : ∀ (log : PersistentEventLog) step, Clean J log → Rereads J log step := by
    intro log step hclean
    cases step with
    | op op => exact fun _ => hclean.readsBack
    | crash n j => exact fun e he => J.readsBack ((crashDisk_contents hclean n j).1 e he)
  obtain ⟨path, steps, hrun⟩ := h
  refine ⟨path, steps, ?_, hrun⟩
  exact StepsMeet.of_invariant (PersistentEventLog.live J) (C := fun _ _ => True)
    (fun log step _ hclean _ hstep => hclean.live (hread log step hclean) hstep)
    (fun log step hclean _ => hread log step hclean) (clean_fresh path)
    (stepsMeet_of_forall _ (fun _ _ _ => trivial) _)

theorem Reachable.clean {J : RoundTripCodec EventEnvelope} (h : Reachable J log) : Clean J log :=
  h.rereading.clean

/-- The induction rule for what memory holds: a property of a new log that is kept by storing an
event with an unseen key, by dropping the oldest events and by a replay holds in every reachable
state. -/
theorem ReachedRereading.inner_induction {P : InMemoryEventLog → Prop} (hnew : P InMemoryEventLog.new)
    (hstore : ∀ m e, m.isDuplicate e = false → P m → P (((m.recordKey e).send e).push e))
    (hdrop : ∀ m n, P m → P { m with events := m.events.drop n })
    (hreplay : ∀ m, P m → P (replayed m.events InMemoryEventLog.new)) (h : ReachedRereading J log) :
    P log.inner := by
  have hcompact : ∀ (log : PersistentEventLog) n, P log.inner → P (log.compact J n).2.inner := by
    intro log n hP
    rcases compact_inner (J := J) log n with heq | heq
    · rwa [heq]
    · rw [heq]
      exact hdrop _ _ hP
  have hop : ∀ (log : PersistentEventLog) op log', Clean J log → P log.inner →
      RestartReads J log op → opStep J log op = some log' → P log'.inner := by
    intro log op log' hclean hP hread hop
    cases op with
    | append e =>
      cases hop
      rcases append_cases J log e with ⟨hsame, -⟩ | ⟨hsame, -⟩ | ⟨hdup, -, heq⟩
      · rwa [hsame]
      · rwa [hsame]
      · rw [heq]
        exact hstore _ _ hdup hP
    | compact n =>
      cases hop
      exact hcompact log n hP
    | compactIfNeeded =>
      cases hop
      rcases compactIfNeeded_snd (J := J) log with heq | heq
      · rwa [heq]
      · rw [heq]
        exact hcompact log _ hP
    | reopen =>
      rw [hclean.opStep_reopen (hread rfl), Option.some.injEq] at hop
      exact hop ▸ hreplay _ hP
  -- a restart replays the file, so the induction has to carry that the file agrees with memory
  have hstep : ∀ (log : PersistentEventLog) step log', Clean J log ∧ P log.inner →
      Rereads J log step → PersistentEventLog.live J log step = some log' →
      Clean J log' ∧ P log'.inner := by
    rintro log step log' ⟨hclean, hP⟩ hread hlive
    refine ⟨hclean.live hread hlive, ?_⟩
    rcases live_cases hclean hread hlive with ⟨op, hread', hop'⟩ | ⟨n, j, rfl⟩
    · exact hop log op log' hclean hP hread' hop'
    · show P (replayed (crashContents log n j).1 InMemoryEventLog.new)
      rw [crashContents]
      split_ifs
      · exact hreplay _ hP
      · exact hreplay _ (hdrop _ n hP)
      · exact hreplay _ (hdrop _ n hP)
  obtain ⟨path, steps, hmeet, hrun⟩ := h
  exact (runSteps_invariant _ hstep steps _ _ ⟨clean_fresh path, hnew⟩ hmeet hrun).2

/-! ## Offsets after a crash -/

/-- A log that has stored one event. -/
def oneEventLog : PersistentEventLog :=
  ((fresh "events.jsonl").append sampleCodec (nodeJoined 1 none)).2

theorem reachable_oneEventLog : Reachable sampleCodec oneEventLog :=
  ⟨"events.jsonl", [.op (.append (nodeJoined 1 none))], rfl⟩

end PersistentEventLog

end Picloud
