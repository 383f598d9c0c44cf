import Picloud.Rdf.Projector

/-!
# Replay against live projection

Reference: `OxigraphProjector::replay` of `picloud-rdf/src/implementation.rs`, and the projection
loop of `src/main.rs`.

Both drivers hand events to `project` one after the other. The live loop logs an error and goes on;
`replay` returns it, and the events after it are not projected. What `replay` writes besides is the
cursor, a triple of its own that the live loop does not write.
-/

namespace Picloud

open Lib

namespace Projector

variable (env : ProjectorEnv)

/-! ## The calls of `project` -/

/-- The calls of `project` that `replay` makes, in order, each with whether it succeeded. -/
def replayCalls (p : Projector) : List EventEnvelope → List (EventEnvelope × Bool)
  | [] => []
  | event :: events =>
    match p.project env event with
    | (.ok (), p') => (event, true) :: replayCalls p' events
    | (.error _, _) => [(event, false)]

/-- Every event is accepted on the store that the events before it leave. -/
def AcceptedInTurn (p : Projector) : List EventEnvelope → Prop
  | [] => True
  | event :: events =>
    (p.project env event).1 = .ok () ∧ AcceptedInTurn (p.project env event).2 events

instance AcceptedInTurn.decidable :
    (p : Projector) → (events : List EventEnvelope) → Decidable (AcceptedInTurn env p events)
  | _, [] => isTrue trivial
  | p, event :: events =>
    have := AcceptedInTurn.decidable (p.project env event).2 events
    have : Decidable ((p.project env event).1 = .ok ()) :=
      match (p.project env event).1 with
      | .ok () => isTrue rfl
      | .error _ => isFalse (by simp)
    inferInstanceAs (Decidable (_ ∧ _))

variable {env}

/-- The loop of `replay` has projected the events it called `project` for. -/
theorem replayLoop_eq_projectEach (p : Projector) (events : List EventEnvelope) :
    (p.replayLoop env events).2 = p.projectEach env ((p.replayCalls env events).map Prod.fst) := by
  induction events generalizing p with
  | nil => rfl
  | cons event events ih =>
    rw [replayLoop, replayCalls]
    cases hp : p.project env event with
    | mk r p' =>
      cases r with
      | ok u =>
        rw [List.map_cons, projectEach, List.foldl_cons, hp]
        exact ih p'
      | error e =>
        rw [List.map_cons, projectEach, List.foldl_cons, hp]
        rfl

/-- The loop calls `project` for every event exactly when no event but the last is rejected. -/
theorem map_replayCalls_eq_iff (p : Projector) (events : List EventEnvelope) :
    (p.replayCalls env events).map Prod.fst = events ↔ p.AcceptedInTurn env events.dropLast := by
  induction events generalizing p with
  | nil => simp [replayCalls, AcceptedInTurn]
  | cons event events ih =>
    rw [replayCalls]
    cases hp : p.project env event with
    | mk r p' =>
      cases events with
      | nil => cases r <;> simp [replayCalls, AcceptedInTurn]
      | cons next rest =>
        rw [List.dropLast_cons_cons, AcceptedInTurn, hp]
        cases r with
        | ok u => simpa using ih p'
        | error e => simp

/-- The loop calls `project` for no other events. -/
theorem map_replayCalls_subset (p : Projector) (events : List EventEnvelope) :
    (p.replayCalls env events).map Prod.fst ⊆ events := by
  induction events generalizing p with
  | nil => simp [replayCalls]
  | cons event events ih =>
    rw [replayCalls]
    cases p.project env event with
    | mk r p' =>
      cases r with
      | ok u => exact List.cons_subset_cons event (ih p')
      | error e => simp

variable {events : List EventEnvelope} {p : Projector} {q : Quad}

/-- A loop that comes to its end has projected every event. -/
theorem replayCalls_of_ok (h : (p.replayLoop env events).1 = .ok ()) :
    p.replayCalls env events = events.map (·, true) := by
  induction events generalizing p with
  | nil => rfl
  | cons event events ih =>
    rw [replayLoop] at h
    rw [replayCalls]
    cases hp : p.project env event with
    | mk r p' =>
      rw [hp] at h
      cases r with
      | ok u => exact congrArg ((event, true) :: ·) (ih h)
      | error e => cases h

/-- When every event but the last is accepted, only the last call can fail. -/
theorem replayCalls_of_acceptedInTurn (h : p.AcceptedInTurn env events) (last : EventEnvelope) :
    ∃ b, p.replayCalls env (events ++ [last]) = events.map (·, true) ++ [(last, b)] := by
  induction events generalizing p with
  | nil =>
    rw [List.nil_append, replayCalls]
    split
    · exact ⟨true, rfl⟩
    · exact ⟨false, rfl⟩
  | cons event events ih =>
    obtain ⟨hok, hrest⟩ := h
    obtain ⟨b, hb⟩ := ih hrest
    rw [List.cons_append, replayCalls]
    cases hp : p.project env event with
    | mk r p' =>
      rw [hp] at hok hb
      cases hok
      exact ⟨b, congrArg ((event, true) :: ·) hb⟩

/-- The cursor advances by at most one for each event. -/
theorem lastProjectedOffset_projectEach_le (env : ProjectorEnv) (p : Projector)
    (events : List EventEnvelope) :
    (p.projectEach env events).lastProjectedOffset ≤ p.lastProjectedOffset + events.length := by
  induction events generalizing p with
  | nil => exact le_rfl
  | cons event events ih =>
    have hone : (p.project env event).2.lastProjectedOffset ≤ p.lastProjectedOffset + 1 := by
      unfold project
      split
      · exact Nat.mod_le _ _
      · exact Nat.le_succ _
    have hrest := ih (p.project env event).2
    rw [projectEach, List.foldl_cons, List.length_cons]
    unfold projectEach at hrest
    omega

/-! ## The cursor triple -/

theorem cursorPattern_matches_iff : cursorPattern.matches q = true ↔
    q.subject = .named ⟨metaSubject⟩ ∧ q.predicate = ⟨pc "lastProjectedOffset"⟩ ∧
      q.graph = .default :=
  valuesOf_matches_iff

/-- Writing the cursor leaves every other quad alone. -/
theorem mem_persistCursor (env : ProjectorEnv) (p : Projector)
    (hq : cursorPattern.matches q = false) :
    q ∈ (p.persistCursor env).2.store ↔ q ∈ p.store := by
  have hops : q ∈ (runOps env.checks p.store (persistCursorOps p.lastProjectedOffset)).2 ↔
      q ∈ p.store := by
    refine runOps_invariant (I := fun s => q ∈ s ↔ q ∈ p.store) (fun op hop s hs => ?_) Iff.rfl
    simp only [persistCursorOps, insertTriple, List.cons_append, List.nil_append, List.mem_cons,
      List.not_mem_nil, or_false] at hop
    rcases hop with rfl | rfl | rfl | rfl | rfl | rfl
    · exact hs
    · exact hs
    · simpa [Op.effect, hq] using hs
    · exact hs
    · exact hs
    · have hne : q ≠ quad metaSubject (pc "lastProjectedOffset")
          (simple (toString p.lastProjectedOffset)) .default := by
        rintro rfl
        rw [cursorPattern_matches_iff.mpr ⟨rfl, rfl, rfl⟩] at hq
        exact absurd hq (by simp)
      rw [Op.effect, Store.mem_insert, or_iff_left hne]
      exact hs
  unfold persistCursor
  split <;> simpa [*] using hops

/-- What `replay` leaves, apart from the cursor, is what its loop leaves. -/
theorem mem_replay (hq : cursorPattern.matches q = false) :
    q ∈ (p.replay env events).2.store ↔ q ∈ (p.replayLoop env events).2.store := by
  unfold replay
  cases p.replayLoop env events with
  | mk r p' =>
    cases r with
    | error e => exact Iff.rfl
    | ok u =>
      by_cases hnil : events = []
      · simp [hnil]
      · have hpersist := mem_persistCursor env p' hq
        simp only [if_neg hnil]
        split <;> simpa [*] using hpersist

/-! ## Agreement -/

/-- `replay` of the events on an empty store agrees with the live loop: the same graph, apart from
the cursor, and `project` is called for every event. -/
def ReplayAgrees (env : ProjectorEnv) (events : List EventEnvelope) : Prop :=
  (∀ q, cursorPattern.matches q = false →
    (q ∈ (new.replay env events).2.store ↔ q ∈ (new.projectEach env events).store)) ∧
  (new.replayCalls env events).map Prod.fst = events

/-- **`replay` agrees with the live loop exactly when every event but the last is accepted in its
turn.** -/
theorem replay_agrees_iff (env : ProjectorEnv) (events : List EventEnvelope) :
    ReplayAgrees env events ↔ new.AcceptedInTurn env events.dropLast := by
  rw [← map_replayCalls_eq_iff]
  refine ⟨fun h => h.2, fun h => ⟨fun q hq => ?_, h⟩⟩
  rw [mem_replay hq, replayLoop_eq_projectEach, h]

/-- A node that joins, named by the payload. -/
def sampleJoin (nodeIri : String) : EventEnvelope :=
  sampleEvent "NodeJoined" none [("node_iri", .string nodeIri), ("node_name", .string "a")]

/-- The first event names its node by a text that is no IRI: the node of the second event is in the
graph of the live loop, and missing after `replay`. -/
theorem replay_stops_at_invalid_iri :
    ¬ ReplayAgrees strictEnv
        [sampleJoin "not an iri", sampleJoin "https://picloud.local/nodes/b"] ∧
      quad "https://picloud.local/nodes/b" rdfType (picloudTerm "Node") .default ∈
        (new.projectEach strictEnv
          [sampleJoin "not an iri", sampleJoin "https://picloud.local/nodes/b"]).store ∧
      quad "https://picloud.local/nodes/b" rdfType (picloudTerm "Node") .default ∉
        (new.replay strictEnv
          [sampleJoin "not an iri", sampleJoin "https://picloud.local/nodes/b"]).2.store := by
  have hlive : quad "https://picloud.local/nodes/b" rdfType (picloudTerm "Node") .default ∈
      (new.projectEach strictEnv
        [sampleJoin "not an iri", sampleJoin "https://picloud.local/nodes/b"]).store := by decide
  have hreplay : quad "https://picloud.local/nodes/b" rdfType (picloudTerm "Node") .default ∉
      (new.replay strictEnv
        [sampleJoin "not an iri", sampleJoin "https://picloud.local/nodes/b"]).2.store := by decide
  exact ⟨fun h => hreplay ((h.1 _ (by decide)).mpr hlive), hlive, hreplay⟩

end Projector

end Picloud
