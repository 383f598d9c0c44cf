import Picloud.Raft.StateMachine
import Picloud.Lib.Steps

/-!
# Crashes inside apply

`SledStateMachine::apply` records an entry as applied before it hands its event to the callback, and
writes the counter once, after the loop. A crash in between leaves an event recorded as applied that
the counter does not count, and that may never have been delivered; the restart goes on after it, so
the difference stays. `ApplyRound` is one batch with the number of effects it gets to.
-/

namespace Picloud

open Lib

/-- The committed entries, in increasing order of their indices. -/
structure CommittedLog where
  entries : List Entry
  increasing : entries.Pairwise fun a b => a.logId.index < b.logId.index

namespace CommittedLog

variable (log : CommittedLog)

/-- The entries up to the last applied one. -/
def applied (last : Option LogId) : List Entry :=
  match last with
  | some id => log.entries.filter fun e => e.logId.index ≤ id.index
  | none => []

/-- The entries after the last applied one, which `openraft` applies next. -/
def remaining (last : Option LogId) : List Entry :=
  match last with
  | some id => log.entries.filter fun e => id.index < e.logId.index
  | none => log.entries

end CommittedLog

/-- A batch of the next `size` entries, of whose effects the first `effects` are executed; the
process restarts if these are not all. -/
structure ApplyRound where
  size : ℕ
  effects : ℕ
deriving DecidableEq

namespace ApplyState

/-- No entry applied and nothing delivered. -/
def new : ApplyState := ⟨OrdMap.empty, []⟩

/-- The persisted position: the last applied entry and the counter. -/
def position (s : ApplyState) : Except StorageFailure (Option LogId × ℕ) :=
  match SledStateMachine.appliedState ⟨s.tree⟩ with
  | .error e => .error e
  | .ok (last, _) =>
    match SledStateMachine.getAppliedCount ⟨s.tree⟩ with
    | .error e => .error e
    | .ok count => .ok (last, count)

/-- One round, from what the previous one has persisted. -/
def round (log : CommittedLog) (s : ApplyState) (r : ApplyRound) : Option ApplyState :=
  match s.position with
  | .error _ => none
  | .ok (last, count) =>
    some (ApplyOp.execAll s ((applyOps count ((log.remaining last).take r.size)).take r.effects))

/-- The counter is the number of events up to the last applied entry, and all of these have been
delivered. -/
def Consistent (log : CommittedLog) (s : ApplyState) : Prop :=
  ∃ last count, s.position = .ok (last, count) ∧
    count = (eventTexts (log.applied last)).length ∧
    (eventTexts (log.applied last)).Sublist s.delivered

end ApplyState

/-- The entries that the first `j` effects of a batch record as applied. -/
def marked : ℕ → List Entry → List Entry
  | 0, _ => []
  | _, [] => []
  -- the first effect of an iteration is the one that records the entry
  | j + 1, e :: es => e :: marked (j + 1 - (entryOps e).length) es

/-- The batch is executed to its end, or the effects before the crash record no `Normal` entry as
applied. -/
def ApplyState.RoundOk (log : CommittedLog) (s : ApplyState) (r : ApplyRound) : Prop :=
  ∀ last count, s.position = .ok (last, count) →
    (applyOps count ((log.remaining last).take r.size)).length ≤ r.effects ∨
      ∀ e ∈ marked r.effects ((log.remaining last).take r.size), e.eventJson = none

instance (log : CommittedLog) (s : ApplyState) (r : ApplyRound) : Decidable (s.RoundOk log r) :=
  match h : s.position with
  | .error e => isTrue fun last count hpos => by
      rw [h] at hpos
      cases hpos
  | .ok (last, count) =>
    decidable_of_iff
      ((applyOps count ((log.remaining last).take r.size)).length ≤ r.effects ∨
        ∀ e ∈ marked r.effects ((log.remaining last).take r.size), e.eventJson = none) <| by
      constructor
      · intro hok last' count' hpos
        rw [h] at hpos
        obtain ⟨rfl, rfl⟩ := Prod.mk.inj (Except.ok.inj hpos)
        exact hok
      · intro hok
        exact hok last count h

/-! ## Positions in the log -/

section

variable (log : CommittedLog)

/-- The id of the last of the first `m` entries. -/
def lastIdAt (m : ℕ) : Option LogId := (log.entries.take m).getLast?.map Entry.logId

theorem split_at (m : ℕ) {id : LogId} (h : lastIdAt log m = some id) :
    (∀ e ∈ log.entries.take m, e.logId.index ≤ id.index) ∧
      ∀ e ∈ log.entries.drop m, id.index < e.logId.index := by
  rw [lastIdAt, Option.map_eq_some_iff] at h
  obtain ⟨e₀, hlast, rfl⟩ := h
  obtain ⟨front, hfront⟩ := List.getLast?_eq_some_iff.mp hlast
  have hpair := log.increasing
  rw [← List.take_append_drop m log.entries, List.pairwise_append] at hpair
  refine ⟨?_, ?_⟩
  · intro e he
    have htake := hpair.1
    rw [hfront, List.pairwise_append] at htake
    rw [hfront, List.mem_append, List.mem_singleton] at he
    rcases he with he | rfl
    · exact le_of_lt (htake.2.2 e he e₀ (by simp))
    · exact le_refl _
  · intro e he
    exact hpair.2.2 e₀ (by simp [hfront]) e he

theorem applied_lastIdAt (m : ℕ) : log.applied (lastIdAt log m) = log.entries.take m := by
  cases h : lastIdAt log m with
  | none =>
    rw [lastIdAt, Option.map_eq_none_iff, List.getLast?_eq_none_iff] at h
    rw [h]
    rfl
  | some id =>
    obtain ⟨hle, hlt⟩ := split_at log m h
    show log.entries.filter (fun e => e.logId.index ≤ id.index) = _
    conv_lhs => rw [← List.take_append_drop m log.entries]
    rw [List.filter_append, List.filter_eq_self.mpr fun e he => decide_eq_true (hle e he),
      List.filter_eq_nil_iff.mpr fun e he => by simpa using hlt e he, List.append_nil]

theorem remaining_lastIdAt (m : ℕ) : log.remaining (lastIdAt log m) = log.entries.drop m := by
  cases h : lastIdAt log m with
  | none =>
    rw [lastIdAt, Option.map_eq_none_iff, List.getLast?_eq_none_iff, List.take_eq_nil_iff] at h
    show log.entries = _
    rcases h with rfl | h
    · rfl
    · rw [h, List.drop_nil]
  | some id =>
    obtain ⟨hle, hlt⟩ := split_at log m h
    show log.entries.filter (fun e => id.index < e.logId.index) = _
    conv_lhs => rw [← List.take_append_drop m log.entries]
    rw [List.filter_append, List.filter_eq_nil_iff.mpr fun e he => by simpa using hle e he,
      List.filter_eq_self.mpr fun e he => decide_eq_true (hlt e he), List.nil_append]

end

/-! ## One round -/

/-- The recorded entries are a first part of the batch. -/
theorem marked_initial (j : ℕ) (es : List Entry) : marked j es <+: es := by
  induction es generalizing j with
  | nil => cases j <;> exact List.prefix_refl _
  | cons e es ih =>
    cases j with
    | zero => exact List.nil_prefix
    | succ j => exact List.cons_prefix_cons.mpr ⟨rfl, ih _⟩

/-- A batch that is not executed to its end: the counter stays as it was, the last recorded entry is
the last applied one, and deliveries are only added. -/
theorem Represents.execAll_take {tree : SledTree} {sm : MemStateMachine} {count : ℕ}
    (h : Represents tree sm count) (es : List Entry) (n j : ℕ) (delivered : List String)
    (hj : j < (applyOps n es).length) :
    ∃ tree' sm' more, ApplyOp.execAll ⟨tree, delivered⟩ ((applyOps n es).take j) =
        ⟨tree', delivered ++ more⟩ ∧ Represents tree' sm' count ∧
      sm'.lastAppliedLog = ((marked j es).getLast?.map Entry.logId).or sm.lastAppliedLog := by
  induction es generalizing tree sm n j delivered with
  | nil =>
    obtain rfl : j = 0 := by simpa [applyOps] using hj
    exact ⟨tree, sm, [], by simp [ApplyOp.execAll], h, rfl⟩
  | cons e es ih =>
    rw [applyOps, List.length_append] at hj
    cases j with
    | zero => exact ⟨tree, sm, [], by simp [ApplyOp.execAll], h, rfl⟩
    | succ j =>
      rw [applyOps, List.take_append, marked]
      by_cases hlen : (entryOps e).length ≤ j + 1
      · -- the iteration is executed to its end, and the crash is in a later one
        obtain ⟨tree₁, hexec, hrep⟩ := h.execAll_entryOps e delivered
        obtain ⟨tree₂, sm₂, more, hexec', hrep', hlast⟩ := ih hrep
          (n + e.eventJson.toList.length) (j + 1 - (entryOps e).length)
          (delivered ++ e.eventJson.toList) (by omega)
        refine ⟨tree₂, sm₂, e.eventJson.toList ++ more, ?_, hrep', ?_⟩
        · rw [List.take_of_length_le hlen, ApplyOp.execAll, List.foldl_append]
          show ApplyOp.execAll (ApplyOp.execAll _ (entryOps e)) _ = _
          rw [hexec, hexec', List.append_assoc]
        · rw [hlast, List.getLast?_cons]
          cases (marked (j + 1 - (entryOps e).length) es).getLast? <;> rfl
      · -- the crash is right after the entry is recorded
        have hops : ∃ rest, entryOps e = .insert "sm_last_applied" (.logId e.logId) :: rest :=
          ⟨_, rfl⟩
        obtain ⟨rest, hrest⟩ := hops
        have hrestLen : rest.length ≤ 1 := by
          have := congrArg List.tail hrest
          rw [entryOps, List.tail_cons, List.tail_cons] at this
          rw [← this]
          split <;> simp
        rw [hrest, List.length_cons] at hlen
        obtain rfl : j = 0 := by omega
        have hzero : 0 + 1 - (entryOps e).length = 0 := by
          rw [hrest, List.length_cons]
          omega
        rw [hzero, marked, hrest, List.take_zero, List.append_nil]
        refine ⟨_, _, [], ?_, h.writeLastApplied e.logId, rfl⟩
        simp [ApplyOp.execAll, ApplyOp.exec]

theorem Represents.position {s : ApplyState} {sm : MemStateMachine} {count : ℕ}
    (h : Represents s.tree sm count) : s.position = .ok (sm.lastAppliedLog, count) := by
  have hcount : SledStateMachine.getAppliedCount ⟨s.tree⟩ = .ok count := h.counter
  rw [ApplyState.position, h.appliedState, MemStateMachine.appliedState]
  simp only [hcount]

/-- How far a state has come: the first `m` entries are recorded as applied, the counter does not
count more events than these have, and if it counts all of them they have all been delivered. -/
structure Progress (log : CommittedLog) (s : ApplyState) (m count : ℕ) : Prop where
  represents : ∃ sm, Represents s.tree sm count ∧ sm.lastAppliedLog = lastIdAt log m
  count_le : count ≤ (eventTexts (log.entries.take m)).length
  delivered : count = (eventTexts (log.entries.take m)).length →
    (eventTexts (log.entries.take m)).Sublist s.delivered

section

variable {log : CommittedLog} {s s' : ApplyState} {m count : ℕ}

theorem Progress.position (h : Progress log s m count) :
    s.position = .ok (lastIdAt log m, count) := by
  obtain ⟨sm, hrep, hlast⟩ := h.represents
  rw [hrep.position, hlast]

/-- The state is consistent exactly when the counter has not fallen behind. -/
theorem Progress.consistent_iff (h : Progress log s m count) :
    s.Consistent log ↔ count = (eventTexts (log.entries.take m)).length := by
  constructor
  · rintro ⟨last, count', hpos, hcount, -⟩
    rw [h.position] at hpos
    obtain ⟨rfl, rfl⟩ := Prod.mk.inj (Except.ok.inj hpos)
    rwa [applied_lastIdAt] at hcount
  · intro hcount
    refine ⟨_, _, h.position, ?_, ?_⟩
    · rwa [applied_lastIdAt]
    · rw [applied_lastIdAt]
      exact h.delivered hcount

/-- The entries recorded by a round, as a first part of those that remained. -/
theorem take_append_initial {es : List Entry} (h : es <+: log.entries.drop m) :
    log.entries.take m ++ es = log.entries.take (m + es.length) := by
  rw [List.take_add, List.prefix_iff_eq_take.mp h]
  simp

theorem lastIdAt_append {es : List Entry} (h : es <+: log.entries.drop m) :
    lastIdAt log (m + es.length) = (es.getLast?.map Entry.logId).or (lastIdAt log m) := by
  rw [lastIdAt, ← take_append_initial h, List.getLast?_append, lastIdAt]
  cases es.getLast? <;> rfl

theorem Progress.roundOk_iff (h : Progress log s m count) (r : ApplyRound) :
    s.RoundOk log r ↔
      (applyOps count ((log.entries.drop m).take r.size)).length ≤ r.effects ∨
        eventTexts (marked r.effects ((log.entries.drop m).take r.size)) = [] := by
  rw [eventTexts, List.filterMap_eq_nil_iff, ApplyState.RoundOk]
  constructor
  · intro hok
    have := hok _ _ h.position
    rwa [remaining_lastIdAt] at this
  · intro hok last count' hpos
    rw [h.position] at hpos
    obtain ⟨rfl, rfl⟩ := Prod.mk.inj (Except.ok.inj hpos)
    rwa [remaining_lastIdAt]

/-- The step lemma: after a round the counter is right exactly when it was right before and the
round is executed to its end, or records no event before its crash. -/
theorem Progress.round (h : Progress log s m count) {r : ApplyRound}
    (hr : s.round log r = some s') :
    ∃ m' count', Progress log s' m' count' ∧
      (count' = (eventTexts (log.entries.take m')).length ↔
        count = (eventTexts (log.entries.take m)).length ∧ s.RoundOk log r) := by
  obtain ⟨sm, hrep, hlast⟩ := h.represents
  rw [ApplyState.round, h.position] at hr
  simp only [remaining_lastIdAt] at hr
  obtain rfl := Option.some.inj hr
  rw [h.roundOk_iff]
  have hbatch : (log.entries.drop m).take r.size <+: log.entries.drop m := List.take_prefix _ _
  generalize (log.entries.drop m).take r.size = batch at hbatch ⊢
  by_cases hdone : (applyOps count batch).length ≤ r.effects
  · -- the whole batch: the counter and the recorded entries grow alike
    obtain ⟨tree', hexec, hrep'⟩ := hrep.execAll_applyOps batch count s.delivered
    have htexts : eventTexts (log.entries.take (m + batch.length)) =
        eventTexts (log.entries.take m) ++ eventTexts batch := by
      rw [← take_append_initial hbatch, eventTexts_append]
    rw [List.take_of_length_le hdone]
    have hs : ApplyOp.execAll s (applyOps count batch) =
        ⟨tree', s.delivered ++ eventTexts batch⟩ := hexec
    rw [hs]
    refine ⟨m + batch.length, count + (eventTexts batch).length, ⟨⟨_, hrep', ?_⟩, ?_, ?_⟩, ?_⟩
    · rw [MemStateMachine.foldl_afterEntry_lastApplied, hlast, lastIdAt_append hbatch]
    · have := h.count_le
      rw [htexts, List.length_append]
      omega
    · intro hcount
      rw [htexts, List.length_append] at hcount
      rw [htexts]
      exact (h.delivered (by omega)).append (List.Sublist.refl _)
    · rw [htexts, List.length_append]
      constructor
      · intro hcount
        exact ⟨by omega, Or.inl hdone⟩
      · rintro ⟨hcount, -⟩
        omega
  · -- a crash: the recorded entries grow and the counter does not
    obtain ⟨tree', sm', more, hexec, hrep', hlast'⟩ :=
      hrep.execAll_take batch count r.effects s.delivered (by omega)
    have hmarked : marked r.effects batch <+: log.entries.drop m :=
      (marked_initial _ _).trans hbatch
    have htexts : eventTexts (log.entries.take (m + (marked r.effects batch).length)) =
        eventTexts (log.entries.take m) ++ eventTexts (marked r.effects batch) := by
      rw [← take_append_initial hmarked, eventTexts_append]
    have hs : ApplyOp.execAll s ((applyOps count batch).take r.effects) =
        ⟨tree', s.delivered ++ more⟩ := hexec
    rw [hs]
    have hle := h.count_le
    refine ⟨m + (marked r.effects batch).length, count, ⟨⟨sm', hrep', ?_⟩, ?_, ?_⟩, ?_⟩
    · rw [hlast', hlast, lastIdAt_append hmarked]
    · rw [htexts, List.length_append]
      omega
    · intro hcount
      rw [htexts, List.length_append] at hcount
      have hnone : eventTexts (marked r.effects batch) = [] :=
        List.length_eq_zero_iff.mp (by omega)
      rw [htexts, hnone, List.append_nil]
      exact (h.delivered (by omega)).trans (List.sublist_append_left _ _)
    · rw [htexts, List.length_append, ← List.length_eq_zero_iff]
      constructor
      · intro hcount
        exact ⟨by omega, Or.inr (by omega)⟩
      · rintro ⟨hcount, hdone' | hnone⟩
        · exact absurd hdone' hdone
        · omega

/-- Over a run: the counter is right at the end exactly when it was right at the start and every
round is executed to its end, or records no event before its crash. -/
theorem Progress.run (h : Progress log s m count) {rounds : List ApplyRound}
    (hrun : runSteps (ApplyState.round log) s rounds = some s') :
    s'.Consistent log ↔
      s.Consistent log ∧
        StepsMeet (ApplyState.round log) (ApplyState.RoundOk log) s rounds := by
  induction rounds generalizing s m count with
  | nil =>
    rw [runSteps_nil, Option.some.injEq] at hrun
    rw [hrun, StepsMeet, and_true]
  | cons r rounds ih =>
    rw [runSteps_cons, Option.bind_eq_some_iff] at hrun
    obtain ⟨s₁, hround, hrun⟩ := hrun
    obtain ⟨m₁, count₁, hprogress, hiff⟩ := h.round hround
    rw [ih hprogress hrun, hprogress.consistent_iff, hiff, ← h.consistent_iff, StepsMeet, hround,
      and_assoc]

end

theorem progress_new (log : CommittedLog) : Progress log ApplyState.new 0 0 :=
  ⟨⟨_, represents_new, rfl⟩, Nat.zero_le _, fun _ => List.nil_sublist _⟩

/-- **Crash-safe apply.** Whatever is committed, in whatever batches it is applied and wherever
crashes stop them: the persisted state is consistent exactly when every round was executed to its
end or crashed before it recorded a `Normal` entry as applied. -/
theorem apply_consistent_iff (log : CommittedLog) (rounds : List ApplyRound) (s : ApplyState)
    (hrun : runSteps (ApplyState.round log) ApplyState.new rounds = some s) :
    s.Consistent log ↔
      StepsMeet (ApplyState.round log) (ApplyState.RoundOk log) ApplyState.new rounds := by
  have hnew : ApplyState.new.Consistent log := (progress_new log).consistent_iff.mpr rfl
  rw [(progress_new log).run hrun]
  exact and_iff_right hnew

/-- Two committed events. -/
def twoEvents : CommittedLog := ⟨[joinedEntry 1, joinedEntry 2], by decide⟩

/-- Both events are applied, one a batch. -/
theorem apply_consistent_two_batches :
    ∃ s, runSteps (ApplyState.round twoEvents) ApplyState.new [⟨1, 3⟩, ⟨1, 3⟩] = some s ∧
      s.Consistent twoEvents :=
  ⟨_, rfl, (apply_consistent_iff twoEvents [⟨1, 3⟩, ⟨1, 3⟩] _ rfl).mpr (by decide +kernel)⟩

/-- A crash right after the first event is recorded as applied: the restart goes on with the second
one, the first is never delivered, and the counter says 1 where 2 events are applied. -/
theorem apply_crash_loses_event :
    ∃ s, runSteps (ApplyState.round twoEvents) ApplyState.new [⟨1, 1⟩, ⟨1, 3⟩] = some s ∧
      s.position = .ok (some ⟨⟨1, 1⟩, 2⟩, 1) ∧ s.delivered = eventTexts [joinedEntry 2] ∧
      ¬ s.Consistent twoEvents := by
  have hlost : ∀ s : ApplyState, s.position = .ok (some ⟨⟨1, 1⟩, 2⟩, 1) →
      ¬ s.Consistent twoEvents := by
    rintro s hpos ⟨last, count, hpos', hcount, -⟩
    rw [hpos] at hpos'
    obtain ⟨rfl, rfl⟩ := Prod.mk.inj (Except.ok.inj hpos')
    revert hcount
    decide
  have hstate : ∀ s,
      runSteps (ApplyState.round twoEvents) ApplyState.new [⟨1, 1⟩, ⟨1, 3⟩] = some s →
      s.position = .ok (some ⟨⟨1, 1⟩, 2⟩, 1) ∧ s.delivered = eventTexts [joinedEntry 2] := by
    rintro s ⟨⟩
    decide +kernel
  obtain ⟨hpos, hdelivered⟩ := hstate _ rfl
  exact ⟨_, rfl, hpos, hdelivered, hlost _ hpos⟩

end Picloud
