import Picloud.Lib.DerivedUpdates
import Picloud.Rdf.Replay

/-!
# Projecting a suffix again

A restarted node projects the events from its cursor on a second time. A handler that only writes
what its event says overwrites: it keeps some quads and adds others, whatever the store, and so does
any sequence of such handlers. A second pass over the sequence then changes nothing.

Six handlers derive what they write or remove from what the store holds, and they meet another store in
the second pass. No harm is done as long as what they derive there does what they derived in the first
pass; for the last one of them in the suffix this is also needed, up to quads that later events write or
remove.
-/

namespace Picloud

open Lib

/-! ## Handlers that overwrite -/

/-- The leader triples that `project_leader_elected` removes. -/
def removableLeaders (env : ProjectorEnv) : Set Quad :=
  {q | ∃ iri, env.checks.iri iri = none ∧ q = leaderQuad iri}

variable {env : ProjectorEnv}

theorem mem_removeLeaders {s : Store} {op : Op} :
    op ∈ removeLeaders env s ↔ ∃ q ∈ s, q.predicate = ⟨pc "hasRole"⟩ ∧
      q.object = picloudTerm "Leader" ∧ q.graph = .default ∧
      env.checks.iri q.subject.text = none ∧ op = .del (leaderQuad q.subject.text).pattern := by
  unfold removeLeaders
  simp only [List.mem_flatMap, (env.scan_perm _).mem_iff, Store.mem_quadsForPattern,
    Pattern.matches_iff, admits_none, admits_some, true_and]
  refine exists_congr fun q => ?_
  cases env.checks.iri q.subject.text <;> simp [eq_comm, and_assoc]

theorem removeLeaders_dels (env : ProjectorEnv) (s : Store) :
    ∀ op ∈ removeLeaders env s, ∃ p, op = .del p := by
  intro op hop
  obtain ⟨r, -, -, -, -, -, rfl⟩ := mem_removeLeaders.mp hop
  exact ⟨_, rfl⟩

/-- Removing the leaders that the store holds is removing all removable leaders. -/
theorem mem_runOps_removeLeaders {s : Store} {q : Quad} :
    q ∈ (runOps env.checks s (removeLeaders env s)).2 ↔ q ∈ s ∧ q ∈ (removableLeaders env)ᶜ := by
  rw [mem_runOps_of_dels (removeLeaders_dels env s)]
  refine and_congr_right fun hq => ⟨?_, ?_⟩
  · rintro hall ⟨iri, hiri, rfl⟩
    have hdel : Op.del (leaderQuad iri).pattern ∈ removeLeaders env s :=
      mem_removeLeaders.mpr ⟨leaderQuad iri, hq, rfl, rfl, rfl, hiri, rfl⟩
    have hself := Quad.pattern_matches.mpr (rfl : leaderQuad iri = leaderQuad iri)
    rw [hall _ hdel] at hself
    exact absurd hself (by simp)
  · intro hkeep p hp
    obtain ⟨r, -, -, -, -, hiri, heq⟩ := mem_removeLeaders.mp hp
    rw [Op.del.inj heq, Bool.eq_false_iff, Ne, Quad.pattern_matches]
    rintro rfl
    exact hkeep ⟨_, hiri, rfl⟩

theorem overwrites_leaderElected {event : EventEnvelope} (h : event.eventType = "LeaderElected") :
    Overwrites fun s => projected env s event := by
  have hremove : Overwrites fun s => (runOps env.checks s (removeLeaders env s)).2 :=
    ⟨(removableLeaders env)ᶜ, ∅, fun s q => by rw [mem_runOps_removeLeaders]; simp⟩
  have heq : (fun s => projected env s event) =
      (fun s => (runOps env.checks s (insertTriple (event.iriOrSource "node_iri") (pc "hasRole")
        (picloudTerm "Leader"))).2) ∘ fun s => (runOps env.checks s (removeLeaders env s)).2 := by
    funext s
    have hok := runOps_ok_of_dels (C := env.checks) (removeLeaders_dels env s) s
    rw [projected_eq, script_leaderElected h, projectLeaderElected, runScript, Step.run]
    cases hr : runOps env.checks s (removeLeaders env s) with
    | mk r s' =>
      rw [hr] at hok
      cases hok
      rw [Function.comp_apply, hr]
      exact congrArg Prod.snd (runScript_singleton s' _)
  rw [heq]
  exact (overwrites_runOps env.checks _).comp hremove

/-- The event types whose handlers derive their updates from the store. -/
def storeDerived : List String :=
  ["SnapshotCreated", "SelfMonitoringCheckCompleted", "ProductDeleted", "ImageDeleted",
    "RegistryGCCompleted", "OntologyLoaded"]

/-- All other handlers overwrite. -/
theorem overwrites_projected {event : EventEnvelope} (h : event.eventType ∉ storeDerived) :
    Overwrites fun s => projected env s event := by
  by_cases hleader : event.eventType = "LeaderElected"
  · exact overwrites_leaderElected hleader
  · have hblind : event.eventType ∉ storeReaders := by
      intro hmem
      rcases mem_storeReaders hmem with hr | hr | hr | hr | hr | hr | hr
      · exact hleader hr
      all_goals exact h (by rw [hr]; decide)
    simp only [projected_eq]
    exact overwrites_runScript (blind_script hblind)

/-! ## A second pass -/

/-- Projecting the events of a list from the `k`-th on a second time leaves the graph that
projecting the list once leaves. -/
def Harmless (env : ProjectorEnv) (events : List EventEnvelope) (k : ℕ) : Prop :=
  ∀ q, q ∈ ((Projector.new.projectEach env events).projectEach env (events.drop k)).store ↔
    q ∈ (Projector.new.projectEach env events).store

/-- The store after the first `k` events. -/
def storeAt (env : ProjectorEnv) (events : List EventEnvelope) (k : ℕ) : Store :=
  (Projector.new.projectEach env (events.take k)).store

/-- The updates that the handler of an event derives from the store it meets. -/
def derivedUpdates (env : ProjectorEnv) (s : Store) (event : EventEnvelope) : List Op :=
  deriveUpdates env.checks s (script env event)

/-- The handler derives from the store `t` of the second pass what has the same effect there, on some
quads, as what it derived from the store `s` of the first pass. -/
def DerivesAlike (env : ProjectorEnv) (event : EventEnvelope) (s t : Store) (quads : Set Quad) : Prop :=
  ∀ q ∈ quads, q ∈ (runOps env.checks t (derivedUpdates env s event)).2 ↔
    q ∈ (runOps env.checks t (derivedUpdates env t event)).2

/-- The store-derived events do so one after the other, from the stores that both passes have come to. -/
def RepeatsUpdates (env : ProjectorEnv) : List EventEnvelope → Store → Store → Prop
  | [], _, _ => True
  | event :: events, s, t =>
    (event.eventType ∈ storeDerived → DerivesAlike env event s t Set.univ) ∧
      RepeatsUpdates env events (projected env s event) (projected env t event)

/-- The quads that events neither write nor remove. -/
def Untouched (env : ProjectorEnv) (events : List EventEnvelope) : Set Quad :=
  {q | q ∈ events.foldl (projected env) [q] ∧ q ∉ events.foldl (projected env) []}

section Passes

variable {event : EventEnvelope} {events post : List EventEnvelope} {s t : Store} {k : ℕ}

/-- What a handler derives from a store does there what the handler does. -/
theorem mem_runOps_derivedUpdates (h : ∀ q, q ∈ t ↔ q ∈ s) (q : Quad) :
    q ∈ (runOps env.checks t (derivedUpdates env s event)).2 ↔ q ∈ projected env s event := by
  rw [derivedUpdates, mem_runOps_deriveUpdates h, projected_eq]

theorem overwrites_foldl (h : ∀ e ∈ events, e.eventType ∉ storeDerived) :
    Overwrites fun s => events.foldl (projected env) s :=
  Overwrites.foldl fun e he => overwrites_projected (h e he)

theorem derivesAlike_of_eq (h : derivedUpdates env s event = derivedUpdates env t event)
    (quads : Set Quad) : DerivesAlike env event s t quads := fun q _ => by rw [h]

/-- Events that repeat their updates do in both passes what one overwriting update does. -/
theorem exists_overwrites (h : RepeatsUpdates env events s t) : ∃ f, Overwrites f ∧
    (∀ q, q ∈ f s ↔ q ∈ events.foldl (projected env) s) ∧
    ∀ q, q ∈ f t ↔ q ∈ events.foldl (projected env) t := by
  induction events generalizing s t with
  | nil => exact ⟨id, Overwrites.id, fun _ => Iff.rfl, fun _ => Iff.rfl⟩
  | cons event events ih =>
    obtain ⟨hevent, hrest⟩ := h
    obtain ⟨f, hf, hs, ht⟩ := ih hrest
    obtain ⟨g, hg, hgs, hgt⟩ : ∃ g, Overwrites g ∧ (∀ q, q ∈ g s ↔ q ∈ projected env s event) ∧
        ∀ q, q ∈ g t ↔ q ∈ projected env t event := by
      by_cases hderived : event.eventType ∈ storeDerived
      · refine ⟨fun s' => (runOps env.checks s' (derivedUpdates env s event)).2,
          overwrites_runOps env.checks _, mem_runOps_derivedUpdates fun _ => Iff.rfl, fun q => ?_⟩
        exact (hevent hderived q (Set.mem_univ q)).trans (mem_runOps_derivedUpdates (fun _ => Iff.rfl) q)
      · exact ⟨_, overwrites_projected hderived, fun _ => Iff.rfl, fun _ => Iff.rfl⟩
    exact ⟨f ∘ g, hf.comp hg, fun q => (hf.mem_congr hgs q).trans (hs q),
      fun q => (hf.mem_congr hgt q).trans (ht q)⟩

/-- The whole list is projected by going on from the store after the first events. -/
theorem storeAt_length (env : ProjectorEnv) (events : List EventEnvelope) (k : ℕ) :
    storeAt env events events.length = (events.drop k).foldl (projected env) (storeAt env events k) := by
  rw [storeAt, storeAt, List.take_length, Projector.store_projectEach, Projector.store_projectEach,
    ← List.foldl_append, List.take_append_drop]

theorem harmless_iff : Harmless env events k ↔
    ∀ q, q ∈ (events.drop k).foldl (projected env) (storeAt env events events.length) ↔
      q ∈ storeAt env events events.length := by
  rw [Harmless, Projector.store_projectEach, storeAt, List.take_length]

/-- After some events a quad that they do not touch tells two stores apart as before. -/
theorem foldl_eq_iff (env : ProjectorEnv) (h : ∀ e ∈ post, e.eventType ∉ storeDerived) :
    (∀ q, q ∈ post.foldl (projected env) s ↔ q ∈ post.foldl (projected env) t) ↔
      ∀ q ∈ Untouched env post, q ∈ s ↔ q ∈ t := by
  obtain ⟨keep, add, hmem⟩ : Overwrites fun s => post.foldl (projected env) s := overwrites_foldl h
  refine forall_congr' fun q => ?_
  rw [Untouched, Set.mem_ofPred_eq, hmem, hmem, hmem, hmem]
  simp only [List.mem_singleton, List.not_mem_nil, true_and, false_and, false_or]
  tauto

end Passes

open Projector in
/-- A second pass counts a snapshot again. -/
theorem not_harmless_snapshotCreated :
    ¬ Harmless plainEnv [sampleEvent "SnapshotCreated" none
      [("volume_iri", .string "https://picloud.local/volumes/v")]] 0 := by
  intro h
  have hq := h (quad "https://picloud.local/volumes/v" (pc "snapshotCount") (simple "2") .default)
  exact absurd hq (by decide +kernel)

end Picloud
