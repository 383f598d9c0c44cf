import Picloud.Lib.Steps
import Picloud.Rdf.Replay

/-!
# Catch-up of the projector

Reference: the startup catch-up and the projection loop of `src/main.rs`, and
`OxigraphProjector::open` of `picloud-rdf/src/implementation.rs`.

The server opens the projector, replays what the log holds from the cursor on, and only then
subscribes. The subscription is a position in the stream of broadcast events; what is appended before
it, and what a lagging subscriber skips, is left to the next start. An error of the replay ends the
process. Every call of `project` is recorded with the position of its event.
-/

namespace Picloud

open Lib

/-! ## The server -/

/-- What the server is doing. `onDisk` says whether the projector has its store on disk; otherwise
opening it has failed, or the feature is not compiled in, and the store is in memory. -/
inductive ProjectionPhase where
  | down
  | caughtUp (onDisk : Bool) (projector : Projector)
  /-- The subscriber receives the broadcast at position `next`. -/
  | live (onDisk : Bool) (projector : Projector) (next : ℕ)
deriving DecidableEq

/-- A projector with its store on disk. -/
def ProjectionPhase.diskProjector : ProjectionPhase → Option Projector
  | .caughtUp true p => some p
  | .live true p _ => some p
  | _ => none

/-- The server, as far as the projection goes. -/
structure ProjectionServer where
  /-- The event log. -/
  log : List EventEnvelope
  /-- The store on disk. -/
  disk : Store
  phase : ProjectionPhase
  /-- The calls of `project`, newest first: the position of the event, and whether it succeeded. -/
  calls : List (ℕ × Bool)
deriving DecidableEq

/-- What can happen. -/
inductive ProjectionAction where
  /-- An event is appended, and broadcast. -/
  | append (event : EventEnvelope)
  /-- The process starts and catches up. -/
  | start (onDisk : Bool)
  /-- The projection loop subscribes. -/
  | subscribe
  /-- The projection loop receives an event. -/
  | recv
  /-- The subscriber has lagged and skips events. -/
  | lagged (n : ℕ)
  /-- The process ends. -/
  | stop
deriving DecidableEq

namespace ProjectionServer

/-- A first start with a log: nothing is on disk and nothing has been projected. -/
def installed (log : List EventEnvelope) : ProjectionServer := ⟨log, [], .down, []⟩

variable (env : ProjectorEnv)

/-- `OxigraphProjector::open`: the cursor is read back from the store on disk. -/
def openProjector (s : ProjectionServer) (onDisk : Bool) : Projector :=
  if onDisk then ⟨s.disk, (Projector.readCursor env s.disk).getD 0⟩ else Projector.new

/-- What is on disk when the projector has the given store. -/
def flushed (s : ProjectionServer) (onDisk : Bool) (store : Store) : Store :=
  if onDisk then store else s.disk

/-- `event_log.events_since(projector.cursor())`. -/
def missed (s : ProjectionServer) (onDisk : Bool) : List EventEnvelope :=
  s.log.drop (s.openProjector env onDisk).lastProjectedOffset

/-- The calls of a replay with the positions of their events, newest first. -/
def positioned (cursor : ℕ) (calls : List (EventEnvelope × Bool)) : List (ℕ × Bool) :=
  (calls.mapIdx fun i call => (cursor + i, call.2)).reverse

/-- The start of the process: without missed events there is nothing to replay, and an error of the
replay ends the process. -/
def catchUp (s : ProjectionServer) (onDisk : Bool) : ProjectionServer :=
  let projector := s.openProjector env onDisk
  let missed := s.missed env onDisk
  if missed = [] then { s with phase := .caughtUp onDisk projector }
  else
    let calls := positioned projector.lastProjectedOffset (projector.replayCalls env missed) ++ s.calls
    match projector.replay env missed with
    | (.ok _, p) => ⟨s.log, s.flushed onDisk p.store, .caughtUp onDisk p, calls⟩
    | (.error _, p) => ⟨s.log, s.flushed onDisk p.store, .down, calls⟩

/-- One step of the server. -/
def step (s : ProjectionServer) : ProjectionAction → Option ProjectionServer
  | .append event => some { s with log := s.log ++ [event] }
  | .start onDisk =>
    match s.phase with
    | .down => some (s.catchUp env onDisk)
    | _ => none
  | .subscribe =>
    match s.phase with
    | .caughtUp onDisk p => some { s with phase := .live onDisk p s.log.length }
    | _ => none
  | .recv =>
    match s.phase with
    | .live onDisk p next =>
      match s.log[next]? with
      | some event =>
        let p' := (p.project env event).2
        some ⟨s.log, s.flushed onDisk p'.store, .live onDisk p' (next + 1),
          (next, (p.project env event).1.isOk) :: s.calls⟩
      | none => none
    | _ => none
  | .lagged n =>
    match s.phase with
    | .live onDisk p next =>
      if next + n ≤ s.log.length then some { s with phase := .live onDisk p (next + n) } else none
    | _ => none
  | .stop => some { s with phase := .down }

/-! ## What is claimed, and the condition -/

/-- Every event of the log has been projected, unless its projection failed when it was last
tried. -/
def UpToDate (s : ProjectionServer) : Prop :=
  ∀ i < s.log.length, (i, true) ∈ s.calls ∨ s.calls.lookup i = some false

/-- The handler of the event inserts no triple at the place of the cursor. -/
def LeavesCursor (event : EventEnvelope) : Prop :=
  ∀ step ∈ script env event, ∀ q, step.Inserts q → Projector.cursorPattern.matches q = false

/-- The step does not reach the defects: a start finds every missed event but the last accepted in
its turn, and no event projected into the store on disk writes in place of the cursor. -/
def Regular (s : ProjectionServer) : ProjectionAction → Prop
  | .start onDisk =>
    (s.openProjector env onDisk).AcceptedInTurn env (s.missed env onDisk).dropLast ∧
      (onDisk = true → ∀ event ∈ s.missed env onDisk, LeavesCursor env event)
  | .recv =>
    match s.phase with
    | .live true _ next => ∀ event, s.log[next]? = some event → LeavesCursor env event
    | _ => True
  | _ => True

variable {env}

/-! ## The cursor triple under projection -/

/-- A quad at the place of the cursor is a number with the property. -/
def CursorQuad (P : ℕ → Prop) (q : Quad) : Prop :=
  Projector.cursorPattern.matches q = true → ∃ n, q.object = simple (toString n) ∧ P n

variable {P : ℕ → Prop} {event : EventEnvelope} {p : Projector} {s : ProjectionServer}
  {onDisk : Bool}

theorem CursorQuad.mono {Q : ℕ → Prop} (h : ∀ n, P n → Q n) {q : Quad} (hq : CursorQuad P q) :
    CursorQuad Q q := by
  intro hmatch
  obtain ⟨n, hn, hp⟩ := hq hmatch
  exact ⟨n, hn, h n hp⟩

/-- Inference adds nothing at the place of the cursor: a number is neither a class nor a subject. -/
theorem keptByInference_cursorQuad (P : ℕ → Prop) : KeptByInference (CursorQuad P) where
  subclass := by
    intro x c d g _ _ hmatch
    have hpred := (Projector.cursorPattern_matches_iff.mp hmatch).2.1
    simp at hpred
  transitive := by
    intro p x y z g hxy _ hmatch
    obtain ⟨n, hn, -⟩ := hxy (Projector.cursorPattern_matches_iff.mpr
      (Projector.cursorPattern_matches_iff.mp hmatch))
    simp [simple] at hn

theorem LeavesCursor.inserts (h : LeavesCursor env event) (P : ℕ → Prop) :
    ∀ step ∈ script env event, ∀ q, step.Inserts q → CursorQuad P q := by
  intro step hstep q hq hmatch
  rw [h step hstep q hq] at hmatch
  exact absurd hmatch (by simp)

theorem cursorQuad_projectEach (events : List EventEnvelope)
    (h : ∀ event ∈ events, LeavesCursor env event) (hp : ∀ q ∈ p.store, CursorQuad P q) :
    ∀ q ∈ (p.projectEach env events).store, CursorQuad P q := by
  rw [Projector.store_projectEach]
  exact forall_mem_foldl_projected (keptByInference_cursorQuad P)
    (fun event hevent => (h event hevent).inserts P) hp

theorem cursorQuad_persistCursor (env : ProjectorEnv) (hp : ∀ q ∈ p.store, CursorQuad P q)
    (hn : P p.lastProjectedOffset) :
    ∀ q ∈ (p.persistCursor env).2.store, CursorQuad P q := by
  have hops : ∀ q ∈ (runOps env.checks p.store
      (Projector.persistCursorOps p.lastProjectedOffset)).2, CursorQuad P q := by
    refine forall_mem_runOps (fun q hq _ => ⟨p.lastProjectedOffset, ?_, hn⟩) hp
    simp only [Projector.persistCursorOps, insertTriple, List.mem_append, List.mem_cons,
      Op.put.injEq, List.not_mem_nil, reduceCtorEq, or_false, false_or] at hq
    rw [hq]
    rfl
  unfold Projector.persistCursor
  split <;> simpa [*] using hops

/-- A replay keeps the place of the cursor, provided that the number it comes to has the property
when it comes to its end. -/
theorem cursorQuad_replay {events : List EventEnvelope}
    (h : ∀ event ∈ events, LeavesCursor env event) (hp : ∀ q ∈ p.store, CursorQuad P q)
    (hn : (p.replayLoop env events).1 = .ok () → P (p.replayLoop env events).2.lastProjectedOffset) :
    ∀ q ∈ (p.replay env events).2.store, CursorQuad P q := by
  have hloop : ∀ q ∈ (p.replayLoop env events).2.store, CursorQuad P q := by
    rw [Projector.replayLoop_eq_projectEach]
    refine cursorQuad_projectEach _ (fun event hevent => h event ?_) hp
    exact Projector.map_replayCalls_subset p events hevent
  unfold Projector.replay
  cases hr : p.replayLoop env events with
  | mk r p' =>
    rw [hr] at hloop hn
    cases r with
    | error e => exact hloop
    | ok u =>
      by_cases hnil : events = []
      · simpa [hnil] using hloop
      · have hpersist := cursorQuad_persistCursor env hloop (hn rfl)
        simp only [if_neg hnil]
        split <;> simpa [*] using hpersist

/-! ## Positions of calls -/

theorem positioned_concat (cursor : ℕ) (calls : List (EventEnvelope × Bool))
    (call : EventEnvelope × Bool) : positioned cursor (calls ++ [call]) =
      (cursor + calls.length, call.2) :: positioned cursor calls := by
  rw [positioned, List.mapIdx_concat, List.reverse_append]
  rfl

theorem mem_positioned {cursor i : ℕ} {events : List EventEnvelope} (hlow : cursor ≤ i)
    (hhigh : i < cursor + events.length) :
    (i, true) ∈ positioned cursor (events.map (·, true)) := by
  rw [positioned, List.mem_reverse, List.mem_mapIdx]
  refine ⟨i - cursor, by rw [List.length_map]; omega, ?_⟩
  rw [List.getElem_map, Prod.mk.injEq]
  exact ⟨by omega, rfl⟩

/-! ## The invariant -/

/-- All events before a position have been projected. -/
def Projected (calls : List (ℕ × Bool)) (n : ℕ) : Prop := ∀ i < n, (i, true) ∈ calls

theorem Projected.append {calls : List (ℕ × Bool)} {n : ℕ} (h : Projected calls n)
    (more : List (ℕ × Bool)) : Projected (more ++ calls) n :=
  fun i hi => List.mem_append_right more (h i hi)

/-- The cursor on disk is at or behind the first event that has not been projected. -/
structure Inv (s : ProjectionServer) : Prop where
  /-- What is at the place of the cursor on disk. -/
  cursor : ∀ q ∈ s.disk, CursorQuad (Projected s.calls) q
  /-- The projector works on the store on disk. -/
  shared : ∀ p, s.phase.diskProjector = some p → p.store = s.disk

theorem inv_installed (log : List EventEnvelope) : Inv (installed log) :=
  ⟨by simp [installed], by simp [installed, ProjectionPhase.diskProjector]⟩

/-- The events before the cursor that is read back have been projected. -/
theorem Inv.projected_readCursor (h : Inv s) :
    Projected s.calls ((Projector.readCursor env s.disk).getD 0) := by
  cases hread : Projector.readCursor env s.disk with
  | none => exact fun i hi => absurd hi (Nat.not_lt_zero i)
  | some n =>
    obtain ⟨q, hfind, hparse⟩ := Option.bind_eq_some_iff.mp hread
    have hmem := List.mem_of_find?_eq_some hfind
    rw [(env.scan_perm _).mem_iff, Store.mem_quadsForPattern] at hmem
    obtain ⟨m, hobj, hm⟩ := h.cursor q hmem.1 hmem.2
    have hnum := (Option.filter_eq_some_iff.mp hparse).1
    rw [hobj, simple, termText, parseNat_toString] at hnum
    cases hnum
    exact hm

theorem Inv.projected_openProjector (h : Inv s) (env : ProjectorEnv) (onDisk : Bool) :
    Projected s.calls (s.openProjector env onDisk).lastProjectedOffset := by
  unfold openProjector
  cases onDisk with
  | true => exact h.projected_readCursor
  | false => exact fun i hi => absurd hi (Nat.not_lt_zero i)

/-! ## One step -/

/-- The calls of a start. -/
def startCalls (env : ProjectorEnv) (s : ProjectionServer) (onDisk : Bool) : List (ℕ × Bool) :=
  let projector := s.openProjector env onDisk
  positioned projector.lastProjectedOffset (projector.replayCalls env (s.missed env onDisk))

/-- What a start does, whatever the replay returns. -/
theorem catchUp_spec (env : ProjectorEnv) (s : ProjectionServer) (onDisk : Bool) :
    (s.missed env onDisk = [] ∧
      s.catchUp env onDisk = { s with phase := .caughtUp onDisk (s.openProjector env onDisk) }) ∨
    (s.missed env onDisk ≠ [] ∧ ∃ phase,
      (∀ p, phase.diskProjector = some p → onDisk = true ∧
        p = ((s.openProjector env onDisk).replay env (s.missed env onDisk)).2) ∧
      s.catchUp env onDisk =
        ⟨s.log, s.flushed onDisk
          ((s.openProjector env onDisk).replay env (s.missed env onDisk)).2.store, phase,
          s.startCalls env onDisk ++ s.calls⟩) := by
  unfold catchUp
  by_cases hnil : s.missed env onDisk = []
  · exact Or.inl ⟨hnil, if_pos hnil⟩
  · refine Or.inr ⟨hnil, ?_⟩
    simp only [if_neg hnil]
    cases (s.openProjector env onDisk).replay env (s.missed env onDisk) with
    | mk r p =>
      cases r with
      | ok n =>
        refine ⟨.caughtUp onDisk p, fun p' hp' => ?_, rfl⟩
        cases onDisk with
        | true => exact ⟨rfl, (Option.some.inj hp').symm⟩
        | false => cases hp'
      | error e => exact ⟨.down, fun p' hp' => (by cases hp'), rfl⟩

@[simp] theorem catchUp_log (s : ProjectionServer) (onDisk : Bool) :
    (s.catchUp env onDisk).log = s.log := by
  rcases catchUp_spec env s onDisk with ⟨-, heq⟩ | ⟨-, phase, -, heq⟩ <;> rw [heq]

/-- A replay that comes to its end has projected everything before its cursor. -/
theorem Inv.projected_replayLoop (h : Inv s)
    (hok : ((s.openProjector env onDisk).replayLoop env (s.missed env onDisk)).1 = .ok ()) :
    Projected (s.startCalls env onDisk ++ s.calls)
      ((s.openProjector env onDisk).replayLoop env (s.missed env onDisk)).2.lastProjectedOffset := by
  intro i hi
  rw [Projector.replayLoop_eq_projectEach, Projector.replayCalls_of_ok hok, List.map_map] at hi
  have hle := Projector.lastProjectedOffset_projectEach_le env
    (s.openProjector env onDisk) ((s.missed env onDisk).map (Prod.fst ∘ (·, true)))
  rw [List.length_map] at hle
  by_cases hlow : i < (s.openProjector env onDisk).lastProjectedOffset
  · exact List.mem_append_right _ (h.projected_openProjector env onDisk i hlow)
  · apply List.mem_append_left
    rw [startCalls, Projector.replayCalls_of_ok hok]
    exact mem_positioned (by omega) (by omega)

/-- The store that a projector opens has the cursor of the disk, or none. -/
theorem Inv.cursor_openProjector (h : Inv s) (onDisk : Bool) :
    ∀ q ∈ (s.openProjector env onDisk).store, CursorQuad (Projected s.calls) q := by
  unfold openProjector
  cases onDisk with
  | true => exact h.cursor
  | false => simp [Projector.new]

theorem Inv.catchUp (h : Inv s) (hreg : Regular env s (.start onDisk)) : Inv (s.catchUp env onDisk) := by
  rcases catchUp_spec env s onDisk with ⟨-, heq⟩ | ⟨-, phase, hphase, heq⟩
  · rw [heq]
    refine ⟨h.cursor, fun p hp => ?_⟩
    cases onDisk with
    | true =>
      rw [← Option.some.inj hp]
      rfl
    | false => cases hp
  · rw [heq]
    refine ⟨?_, fun p hp => ?_⟩
    · cases onDisk with
      | true =>
        refine cursorQuad_replay (hreg.2 rfl) (fun q hq => ?_) h.projected_replayLoop
        exact (h.cursor_openProjector true q hq).mono fun n hn => hn.append _
      | false => exact fun q hq => (h.cursor q hq).mono fun n hn => hn.append _
    · obtain ⟨rfl, rfl⟩ := hphase p hp
      rfl

theorem Inv.recv (h : Inv s) {next : ℕ} (hphase : s.phase = .live onDisk p next)
    (hleaves : onDisk = true → LeavesCursor env event) (b : Bool) :
    Inv ⟨s.log, s.flushed onDisk (p.project env event).2.store,
      .live onDisk (p.project env event).2 (next + 1), (next, b) :: s.calls⟩ := by
  have hmono : ∀ q, CursorQuad (Projected s.calls) q →
      CursorQuad (Projected ((next, b) :: s.calls)) q :=
    fun q hq => hq.mono fun n hn => hn.append [(next, b)]
  refine ⟨?_, fun p' hp' => ?_⟩
  · cases onDisk with
    | true =>
      refine cursorQuad_projectEach [event] (by simpa using hleaves) fun q hq =>
        hmono q (h.cursor q ?_)
      rwa [← h.shared p (by rw [hphase]; rfl)]
    | false => exact fun q hq => hmono q (h.cursor q hq)
  · cases onDisk with
    | true =>
      rw [← Option.some.inj hp']
      rfl
    | false => cases hp'

/-- A regular step keeps the invariant. -/
theorem Inv.step {s' : ProjectionServer} {a : ProjectionAction} (h : Inv s) (hreg : Regular env s a)
    (hstep : s.step env a = some s') : Inv s' := by
  cases a with
  | append event =>
    cases hstep
    exact ⟨h.cursor, h.shared⟩
  | start onDisk =>
    simp only [ProjectionServer.step] at hstep
    split at hstep
    · cases hstep
      exact h.catchUp hreg
    · cases hstep
  | subscribe =>
    simp only [ProjectionServer.step] at hstep
    split at hstep
    · next onDisk p hphase =>
      cases hstep
      refine ⟨h.cursor, fun p' hp' => h.shared p' ?_⟩
      rw [hphase]
      cases onDisk <;> exact hp'
    · cases hstep
  | recv =>
    simp only [ProjectionServer.step] at hstep
    split at hstep
    · next onDisk p next hphase =>
      split at hstep
      · next event hevent =>
        cases hstep
        refine h.recv hphase (fun hdisk => ?_) _
        subst hdisk
        simp only [Regular, hphase] at hreg
        exact hreg event hevent
      · cases hstep
    · cases hstep
  | lagged n =>
    simp only [ProjectionServer.step] at hstep
    split at hstep
    · next onDisk p next hphase =>
      split at hstep
      · cases hstep
        refine ⟨h.cursor, fun p' hp' => h.shared p' ?_⟩
        rw [hphase]
        cases onDisk <;> exact hp'
      · cases hstep
    · cases hstep
  | stop =>
    cases hstep
    exact ⟨h.cursor, fun p' hp' => by cases hp'⟩

/-! ## After a start -/

/-- A regular start leaves nothing behind. -/
theorem Inv.upToDate_catchUp (h : Inv s) (hreg : Regular env s (.start onDisk)) :
    UpToDate (s.catchUp env onDisk) := by
  intro i hi
  rw [catchUp_log] at hi
  have hbelow := h.projected_openProjector env onDisk
  set cursor := (s.openProjector env onDisk).lastProjectedOffset with hcursor
  have hlen : (s.missed env onDisk).length = s.log.length - cursor := List.length_drop
  rcases catchUp_spec env s onDisk with ⟨hnil, heq⟩ | ⟨hne, phase, -, heq⟩
  · rw [heq]
    rw [hnil, List.length_nil] at hlen
    exact Or.inl (hbelow i (by omega))
  · rw [heq]
    by_cases hlow : i < cursor
    · exact Or.inl (List.mem_append_right _ (hbelow i hlow))
    · obtain ⟨b, hb⟩ := Projector.replayCalls_of_acceptedInTurn hreg.1
        ((s.missed env onDisk).getLast hne)
      rw [List.dropLast_append_getLast] at hb
      have hdrop : (s.missed env onDisk).dropLast.length = s.log.length - cursor - 1 := by
        rw [List.length_dropLast, hlen]
      have hcalls : s.startCalls env onDisk = (s.log.length - 1, b) ::
          positioned cursor ((s.missed env onDisk).dropLast.map (·, true)) := by
        rw [startCalls, hb, positioned_concat, List.length_map, hdrop, ← hcursor]
        congr 2
        omega
      show _ ∈ s.startCalls env onDisk ++ s.calls ∨ _ = _
      rw [hcalls]
      by_cases hlast : i = s.log.length - 1
      · subst hlast
        cases b with
        | true => exact Or.inl (by simp)
        | false => exact Or.inr (by simp)
      · refine Or.inl (List.mem_append_left _ (List.mem_cons_of_mem _ ?_))
        exact mem_positioned (by omega) (by omega)

/-- **After every start of a regular run the projector is up to date**, whatever was lost between
the catch-up and the subscription, to lag and to failing projections before. -/
theorem upToDate_after_restart (env : ProjectorEnv) (log : List EventEnvelope)
    (actions : List ProjectionAction) (onDisk : Bool) (s : ProjectionServer)
    (hmeet : StepsMeet (step env) (Regular env) (installed log) (actions ++ [.start onDisk]))
    (hrun : runSteps (step env) (installed log) (actions ++ [.start onDisk]) = some s) :
    UpToDate s := by
  obtain ⟨hbefore, hstart⟩ := (stepsMeet_append _).mp hmeet
  rw [runSteps_append, Option.bind_eq_some_iff] at hrun
  obtain ⟨t, ht, hlast⟩ := hrun
  have hinv : Inv t := runSteps_invariant (step env) (fun _ _ _ hi hc hs => hi.step hc hs)
    actions (installed log) t (inv_installed log) hbefore ht
  have hreg := (stepsMeet_singleton _).mp (hstart t ht)
  rw [runSteps_singleton] at hlast
  simp only [step] at hlast
  split at hlast
  · cases hlast
    exact hinv.upToDate_catchUp hreg
  · cases hlast

/-- A joining node does not write in place of the cursor. -/
theorem leavesCursor_nodeJoined (h : event.eventType = "NodeJoined") :
    LeavesCursor env event := by
  have hscript : script env event = projectNodeJoined event := by
    rw [script, h]
    rfl
  intro step hstep q hq
  rw [hscript, projectNodeJoined, List.mem_singleton] at hstep
  subst hstep
  simp only [Step.Inserts, insertTriple, List.cons_append, List.nil_append, List.mem_cons,
    Op.put.injEq, reduceCtorEq, List.not_mem_nil, or_false, false_or] at hq
  rw [Bool.eq_false_iff, Ne, Projector.cursorPattern_matches_iff]
  rintro ⟨-, hpred, -⟩
  rcases hq with rfl | rfl | rfl | rfl | rfl <;> simp [quad] at hpred

/-- A log of joining nodes is regular where every start finds its events accepted. -/
theorem regular_of_nodeJoined {a : ProjectionAction}
    (hlog : ∀ event ∈ s.log, event.eventType = "NodeJoined") (hstart : ∀ onDisk, a = .start onDisk →
      (s.openProjector env onDisk).AcceptedInTurn env (s.missed env onDisk).dropLast) :
    Regular env s a := by
  cases a with
  | start onDisk =>
    refine ⟨hstart onDisk rfl, fun _ event hevent => leavesCursor_nodeJoined (hlog event ?_)⟩
    exact List.mem_of_mem_drop hevent
  | recv =>
    simp only [Regular]
    split
    · exact fun event hevent => leavesCursor_nodeJoined (hlog event (List.mem_of_getElem? hevent))
    · trivial
  | append event => trivial
  | subscribe => trivial
  | lagged n => trivial
  | stop => trivial

/-- A run in which an event is appended before the subscription and another is lost to lag: the
next start finds both. -/
theorem upToDate_after_gap_and_lag :
    ∃ s, runSteps (step plainEnv)
        (installed [Projector.sampleJoin "https://picloud.local/nodes/a"])
        ([.start true, .append (Projector.sampleJoin "https://picloud.local/nodes/b"), .subscribe,
          .append (Projector.sampleJoin "https://picloud.local/nodes/c"), .lagged 1,
          .append (Projector.sampleJoin "https://picloud.local/nodes/d"), .recv, .stop] ++
          [.start true]) = some s ∧ UpToDate s := by
  obtain ⟨s, hrun⟩ := Option.isSome_iff_exists.mp (show (runSteps (step plainEnv)
      (installed [Projector.sampleJoin "https://picloud.local/nodes/a"])
      ([.start true, .append (Projector.sampleJoin "https://picloud.local/nodes/b"), .subscribe,
        .append (Projector.sampleJoin "https://picloud.local/nodes/c"), .lagged 1,
        .append (Projector.sampleJoin "https://picloud.local/nodes/d"), .recv, .stop] ++
        [.start true])).isSome = true by decide)
  refine ⟨s, hrun, upToDate_after_restart _ _ _ _ s ?_ hrun⟩
  exact StepsMeet.mono _ (C := fun s a => (∀ event ∈ s.log, event.eventType = "NodeJoined") ∧
    ∀ onDisk, a = .start onDisk → (s.openProjector plainEnv onDisk).AcceptedInTurn plainEnv
      (s.missed plainEnv onDisk).dropLast) (fun s a h => regular_of_nodeJoined h.1 h.2) (by decide)

/-- The log holds an event whose node is no IRI, and a valid one after it. Both starts end at the
first event; the second event is never handed to `project`. -/
theorem restart_stops_at_invalid_iri :
    ∃ s, runSteps (step strictEnv)
        (installed [Projector.sampleJoin "not an iri",
          Projector.sampleJoin "https://picloud.local/nodes/b"]) [.start true, .start true] = some s ∧
      (1, true) ∉ s.calls ∧ (1, false) ∉ s.calls ∧ ¬ UpToDate s ∧
      (projectStore strictEnv s.disk
        (Projector.sampleJoin "https://picloud.local/nodes/b")).1 = .ok () := by
  refine ⟨⟨[Projector.sampleJoin "not an iri",
    Projector.sampleJoin "https://picloud.local/nodes/b"], [], .down, [(0, false), (0, false)]⟩,
    by decide, by decide, by decide, fun h => ?_, rfl⟩
  exact absurd (h 1 (by decide)) (by decide)

end ProjectionServer

end Picloud
