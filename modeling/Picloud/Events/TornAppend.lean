import Picloud.Events.Recovery

/-!
# A crash inside an append

`append` writes the line of an event and its newline, and a crash can let any prefix of these bytes
through. `open` has no notion of a torn last line: it parses whatever stands there, and it does not
terminate it. So a cut inside the text makes `open` fail, and a cut right before the newline makes
an event appear whose append never returned. Only a crash that lets nothing through is recovered
from, and then only if the events read back from their lines.
-/

namespace Picloud

open Lib

namespace PersistentEventLog

variable (J : JsonCodec EventEnvelope)

/-- The files open with exactly the events `es`, and the event `later`, appended then, is behind them
when the files are opened again. -/
def Recovers (path : String) (disk : Disk) (es : List EventEnvelope) (later : EventEnvelope) : Prop :=
  ∃ log, openLog J path disk = .ok log ∧ log.inner.events = es ∧
    ∃ log', openLog J path (log.append J later).2.disk = .ok log' ∧
      log'.inner.events = es ++ [later]

variable {J}

/-! ## The replay loop on a torn file -/

variable {es : List EventEnvelope} {j : ℕ} {e later : EventEnvelope} {disk : Disk}

/-- A strict prefix of a line stops before the newline. -/
theorem take_line {s : String} (hj : j < (line s).length) :
    (line s).take j = (utf8 s).take j := by
  rw [line, List.length_append, List.length_singleton] at hj
  rw [line, List.take_append_of_le_length (by omega)]

/-- One iteration of the replay loop on a non-empty cut line: it fails, or it finds an
event. -/
theorem replayLine_cut (hcut : J.RejectsCut) (he : J.Writes e) {b : Bytes}
    (hb : b <+: utf8 (J.text e)) (hne : b ≠ []) (n : ℕ) (log : InMemoryEventLog) :
    (∃ err, replayLine J n b log = .error err) ∨
      ∃ f, replayLine J n b log = .ok ((log.recordKey f).push f) := by
  obtain ⟨-, htrim, -⟩ := J.isLine he.toString_eq
  by_cases hwhole : b = utf8 (J.text e)
  · rw [hwhole]
    exact (replayLine_of_writes he n log).imp (fun ⟨_, _, h⟩ => h) fun ⟨f, _, h⟩ => ⟨f, h⟩
  · left
    unfold replayLine
    cases hp : ofUtf8 b with
    | none => exact ⟨_, rfl⟩
    | some p =>
      have hbytes : utf8 p = b := utf8_of_ofUtf8 hp
      have hpre : p.toList <+: (J.text e).toList := toList_isPrefix_of_utf8 (hbytes ▸ hb)
      have hpne : p ≠ "" := by
        rintro rfl
        exact hne hbytes.symm
      obtain ⟨htne, htpre⟩ := trim_of_isPrefix htrim hpre hpne
      -- trimming makes the text no longer, so it is still a proper prefix
      have hproper : trim p ≠ J.text e := by
        intro heq
        have hback : (J.text e).toList <+: p.toList := heq ▸ htpre
        have hsame : p = J.text e := String.toList_inj.mp
          (hpre.eq_of_length (le_antisymm hpre.length_le hback.length_le))
        exact hwhole (by rw [← hbytes, hsame])
      obtain ⟨err, herr⟩ := hcut he.toString_eq (htpre.trans hpre) hproper
      simp only [if_neg htne, herr]
      exact ⟨_, rfl⟩

/-- Opening a file whose last line is cut anywhere behind its first byte finds one event more than
there are complete lines, if it does not fail. -/
theorem openLog_torn (hcut : J.RejectsCut) {path : String} (hw : ∀ e' ∈ es, J.Writes e')
    (he : J.Writes e) (hpos : 0 < j) (hj : j < (line (J.text e)).length)
    (hlog : disk.log = some (render J es ++ (line (J.text e)).take j))
    {log : PersistentEventLog} (hopen : openLog J path disk = .ok log) :
    log.inner.events.length = es.length + 1 := by
  have htake : (line (J.text e)).take j = (utf8 (J.text e)).take j := take_line hj
  have hlen : (line (J.text e)).length = (utf8 (J.text e)).length + 1 := by
    rw [line, List.length_append, List.length_singleton]
  have hne : (utf8 (J.text e)).take j ≠ [] := by
    intro hnil
    have := congrArg List.length hnil
    rw [List.length_take, List.length_nil] at this
    omega
  have hnew : (10 : UInt8) ∉ (utf8 (J.text e)).take j := fun hmem =>
    newline_notMem_utf8 (J.isLine he.toString_eq).1 (List.mem_of_mem_take hmem)
  have hdef : openLog J path disk =
      (replayLines J 0 (lines (render J es ++ (utf8 (J.text e)).take j))
        InMemoryEventLog.new).bind fun inner => (loadOffset path disk).bind fun offset =>
          .ok ⟨inner, { disk with log := some (disk.log.getD []) }, path, offset⟩ := by
    unfold openLog
    rw [← htake, hlog]
    rfl
  rw [hdef] at hopen
  cases hrun : replayLines J 0 (lines (render J es ++ (utf8 (J.text e)).take j))
      InMemoryEventLog.new with
  | error err => simp [hrun, Except.bind] at hopen
  | ok inner =>
    -- the loop ends with the cut line
    obtain ⟨fs, hfs, hlast⟩ := (replayLines_render_append hw _ _ _ _).mp hrun
    rw [lines_of_notMem hnew hne, replayLines] at hlast
    rcases replayLine_cut hcut he (List.take_prefix j _) hne (0 + es.length)
      (replayed fs InMemoryEventLog.new) with ⟨err, herr⟩ | ⟨f, hok⟩
    · rw [herr] at hlast
      cases hlast
    · rw [hok] at hlast
      simp only [replayLines, Except.ok.injEq] at hlast
      cases hoff : loadOffset path disk with
      | error err => simp [hrun, Except.bind, hoff] at hopen
      | ok offset =>
        simp only [hrun, Except.bind, hoff, Except.ok.injEq] at hopen
        rw [← hopen, ← hlast]
        simp [replayed_events, InMemoryEventLog.new, hfs.length_eq]

/-- A torn line is never recovered from. -/
theorem not_recovers_of_torn (hcut : J.RejectsCut) {path : String} (hw : ∀ e' ∈ es, J.Writes e')
    (he : J.Writes e) (hpos : 0 < j) (hj : j < (line (J.text e)).length)
    (hlog : disk.log = some (render J es ++ (line (J.text e)).take j)) :
    ¬ Recovers J path disk es later := by
  rintro ⟨log, hopen, hes, -⟩
  have hlong := openLog_torn hcut hw he hpos hj hlog hopen
  rw [hes] at hlong
  omega

/-! ## Files that end with a complete line -/

/-- Files that hold complete lines are recovered from if and only if the events in them and the one
that is appended read back. -/
theorem recovers_render_iff {path : String} {offset : ℕ} (hw : ∀ e ∈ es, J.Writes e)
    (hlater : J.Writes later)
    (hnew : ∀ k, later.idempotencyKey = some k → ∀ e ∈ es, e.idempotencyKey ≠ some k)
    (hlog : disk.log = some (render J es)) (hoff : loadOffset path disk = .ok offset) :
    Recovers J path disk es later ↔ ∀ e ∈ es ++ [later], J.ReadsBack e := by
  have hclean : Clean J ⟨replayed es InMemoryEventLog.new, disk, path, offset⟩ :=
    clean_of_render hw hlog hoff
  have hev : (replayed es InMemoryEventLog.new).events = es := replayed_events _ _
  have hfree : (replayed es InMemoryEventLog.new).isDuplicate later = false := by
    rw [InMemoryEventLog.isDuplicate_eq_false_iff]
    intro k hk hmem
    rcases (mem_replayed_seenKeys _ _ k).mp hmem with hold | ⟨e, he, hkey⟩
    · simp [InMemoryEventLog.new] at hold
    · exact hnew k hk e he hkey
  -- what the append leaves is clean, with the later event behind the others
  obtain ⟨log', happend, hclean', hev'⟩ : ∃ log', (PersistentEventLog.append J
      ⟨replayed es InMemoryEventLog.new, disk, path, offset⟩ later).2 = log' ∧
      Clean J log' ∧ log'.inner.events = es ++ [later] ∧ log'.path = path := by
    refine ⟨_, rfl, hclean.append later, ?_⟩
    rcases append_cases J ⟨replayed es InMemoryEventLog.new, disk, path, offset⟩ later with
      ⟨-, hdup, -⟩ | ⟨-, t, ht⟩ | ⟨-, -, heq⟩
    · exact absurd (hdup.symm.trans hfree) (by simp)
    · obtain ⟨s, hs⟩ := hlater
      simp [hs] at ht
    · rw [heq]
      simp [hev, writeLine]
  obtain ⟨hev', hpath⟩ := hev'
  constructor
  · rintro ⟨log, hopen, hes, log'', hopen', hes'⟩
    have hread := (openLog_render_events hw hlog hoff hopen).2.2 hes
    rw [openLog_of_render hread hlog hoff, Except.ok.injEq] at hopen
    rw [← hopen, happend] at hopen'
    have hread' := openLog_render_events hclean'.writes hclean'.file hclean'.sidecar
      (hpath ▸ hopen')
    rw [hev'] at hread'
    exact hread'.2.2 hes'
  · intro hread
    refine ⟨_, openLog_of_render (fun e he => hread e (List.mem_append_left _ he)) hlog hoff, hev, ?_⟩
    rw [happend, ← hpath]
    refine ⟨_, hclean'.openLog_eq (by rwa [hev']), ?_⟩
    show (replayed log'.inner.events InMemoryEventLog.new).events = es ++ [later]
    rw [replayed_events, hev']
    rfl

/-- **Reopening after a crash inside `append`.** For every list of stored events, every event, every
number `j` of bytes of its line that the crash lets through, short of the whole line, and every
further event with a new key: the files open with exactly the stored events and take the further
event behind them if and only if not a single byte went through and all these events read back. -/
theorem torn_append_recovers_iff (J : JsonCodec EventEnvelope) (hcut : J.RejectsCut) (path : String)
    (disk : Disk) (es : List EventEnvelope) (e later : EventEnvelope) (j offset : ℕ)
    (hw : ∀ e' ∈ es, J.Writes e') (he : J.Writes e) (hlater : J.Writes later)
    (hnew : ∀ k, later.idempotencyKey = some k → ∀ e' ∈ es, e'.idempotencyKey ≠ some k)
    (hj : j < (line (J.text e)).length)
    (hlog : disk.log = some (render J es ++ (line (J.text e)).take j))
    (hoff : loadOffset path disk = .ok offset) :
    Recovers J path disk es later ↔ j = 0 ∧ ∀ e' ∈ es ++ [later], J.ReadsBack e' := by
  rcases Nat.eq_zero_or_pos j with rfl | hpos
  · rw [List.take_zero, List.append_nil] at hlog
    rw [recovers_render_iff hw hlater hnew hlog hoff]
    simp
  · refine iff_of_false (not_recovers_of_torn hcut hw he hpos hj hlog) ?_
    rintro ⟨rfl, -⟩
    exact hpos.false

/-- `serde_json` on two sample events, whose texts are equally long. -/
def twoEventCodec : RoundTripCodec EventEnvelope :=
  RoundTripCodec.ofTable [(nodeJoined 1 none, joinedText₁), (nodeJoined 2 none, joinedText₂)]
    (by simpa using joinedText_ne)
    (by
      simp only [List.forall_mem_cons]
      exact ⟨isLine_joinedText.1, isLine_joinedText.2, by simp⟩)

theorem twoEventCodec_writes : ∀ e ∈ [nodeJoined 1 none, nodeJoined 2 none],
    twoEventCodec.Writes e := by
  simp only [List.forall_mem_cons]
  exact ⟨⟨_, rfl⟩, ⟨_, rfl⟩, by simp⟩

theorem twoEventCodec_rejectsCut : twoEventCodec.RejectsCut := by
  unfold twoEventCodec
  refine RoundTripCodec.rejectsCut_ofTable (n := joinedText₁.toList.length) ?_
  simp only [List.forall_mem_cons]
  exact ⟨trivial, length_joinedText, by simp⟩

/-- The line of an event has a byte in front of its newline. -/
theorem one_lt_length_line (he : J.Writes e) : 1 < (line (J.text e)).length := by
  have hne : utf8 (J.text e) ≠ [] := by
    intro hnil
    have hempty := ofUtf8_utf8 (J.text e)
    rw [hnil] at hempty
    exact (J.isLine he.toString_eq).2.2 (Option.some.inj hempty).symm
  have := List.length_pos_iff.mpr hne
  rw [line, List.length_append, List.length_singleton]
  omega

/-- The stored event and a further one are recovered when no byte of a torn line is in the file, and
not when its first byte is. -/
theorem torn_append_stored_event :
    Recovers twoEventCodec "events.jsonl"
        ⟨some (render twoEventCodec [nodeJoined 1 none] ++
          (line (twoEventCodec.text (nodeJoined 2 none))).take 0), none, none⟩
        [nodeJoined 1 none] (nodeJoined 2 none) ∧
      ¬ Recovers twoEventCodec "events.jsonl"
        ⟨some (render twoEventCodec [nodeJoined 1 none] ++
          (line (twoEventCodec.text (nodeJoined 2 none))).take 1), none, none⟩
        [nodeJoined 1 none] (nodeJoined 2 none) := by
  have hw := twoEventCodec_writes
  have hstored : ∀ e ∈ [nodeJoined 1 none], twoEventCodec.Writes e :=
    fun e he => hw e (List.mem_cons.mpr (Or.inl (List.mem_singleton.mp he)))
  have hsecond : twoEventCodec.Writes (nodeJoined 2 none) := hw _ (by simp)
  refine ⟨?_, fun hrec => ?_⟩
  · refine (torn_append_recovers_iff twoEventCodec twoEventCodec_rejectsCut "events.jsonl" _
      [nodeJoined 1 none] (nodeJoined 2 none) (nodeJoined 2 none) 0 0 hstored hsecond hsecond
      (fun k hk => by cases hk) (by simp [line]) rfl rfl).mpr ⟨rfl, fun e he => ?_⟩
    exact twoEventCodec.readsBack (hw e he)
  · have := (torn_append_recovers_iff twoEventCodec twoEventCodec_rejectsCut "events.jsonl" _
      [nodeJoined 1 none] (nodeJoined 2 none) (nodeJoined 2 none) 1 0 hstored hsecond hsecond
      (fun k hk => by cases hk) (one_lt_length_line hsecond) rfl rfl).mp hrec
    cases this.1

/-- With the first byte of the first line in the file, the log is not recovered: the file opens
with an error, or with more than the empty list of events. -/
theorem torn_append_first_byte :
    ¬ Recovers twoEventCodec "events.jsonl"
      ⟨some ((line (twoEventCodec.text (nodeJoined 1 none))).take 1), none, none⟩ []
      (nodeJoined 2 none) := by
  have hfirst : twoEventCodec.Writes (nodeJoined 1 none) := twoEventCodec_writes _ (by simp)
  exact not_recovers_of_torn twoEventCodec_rejectsCut (by simp) hfirst Nat.one_pos
    (one_lt_length_line hfirst) (by rw [render_nil, List.nil_append])

end PersistentEventLog

end Picloud
