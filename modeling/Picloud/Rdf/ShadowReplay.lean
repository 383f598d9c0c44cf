import Picloud.Rdf.Vocabulary

/-!
# Replay into a shadow graph

Reference: `project_to_shadow` and `execute_replay` of `picloud-rdf/src/implementation.rs`.

`execute_replay` fills a shadow graph, clears the target graph, copies the shadow graph into it and
clears the shadow graph. What it fills the shadow graph with is not what the handlers write: two
triples for each event, whatever its type, that mark its resource as replayed.
-/

namespace Picloud

open Lib

/-! ## The replay -/

/-- The resource of an event for the shadow graph: the first of the fields that is there decides, and
it has to be a text. -/
def shadowResource (event : EventEnvelope) : String :=
  let field := event.payload.get? "resource_iri"
    |>.or (event.payload.get? "node_iri") |>.or (event.payload.get? "identity_iri")
    |>.or (event.payload.get? "product_iri") |>.or (event.payload.get? "config_iri")
    |>.or (event.payload.get? "flag_iri") |>.or (event.payload.get? "group_iri")
  (field.bind Json.asStr).getD event.source.value

/-- `project_to_shadow`. -/
def projectToShadow (shadowGraph : String) (event : EventEnvelope) : List Op :=
  let iri := shadowResource event
  insertTripleInGraph iri rdfType (picloudTerm "ReplayedResource") shadowGraph ++
    insertTripleInGraph iri (pc "lastEventType") (simple event.eventType) shadowGraph

/-- All quads of a named graph. -/
def inNamedGraph (graph : String) : Pattern := { graph := some (.named ⟨graph⟩) }

/-- The copies of the quads of the shadow graph, and their removal. -/
def copyAndClean (target shadowGraph : String) (s : Store) : List Op :=
  (s.quadsForPattern (inNamedGraph shadowGraph)).map
      (fun q => .put { q with graph := .named ⟨target⟩ }) ++
    (s.quadsForPattern (inNamedGraph shadowGraph)).map fun q => .del q.pattern

/-- The swap at the end of `execute_replay`. -/
def swapGraphs (target shadowGraph : String) : Script :=
  [.ops [.named "invalid target graph IRI: " target, .del (inNamedGraph target),
      .named "invalid shadow graph IRI: " shadowGraph],
    .read (copyAndClean target shadowGraph)]

/-- The steps of `execute_replay`. -/
def replayScript (shadowGraph : String) (events : List EventEnvelope) (target : Option String) :
    Script :=
  .ops (.named "invalid shadow graph IRI: " shadowGraph ::
      events.flatMap (projectToShadow shadowGraph)) ::
    target.toList.flatMap fun t => swapGraphs t shadowGraph

/-- `ReplayResult`. -/
structure ReplayResult where
  replayId : Uuid
  eventsReplayed : ℕ
  shadowGraphIri : String
deriving DecidableEq

/-- The IRI of the shadow graph of a replay. -/
def shadowGraphIri (env : ProjectorEnv) (replayId : Uuid) : String :=
  env.iris.replayGraph replayId.display

/-- `execute_replay`. -/
def executeReplay (env : ProjectorEnv) (s : Store) (replayId : Uuid) (events : List EventEnvelope)
    (target : Option String) : Except PiCloudError ReplayResult × Store :=
  let shadowGraph := shadowGraphIri env replayId
  match runScript env.checks s (replayScript shadowGraph events target) with
  | (.ok (), s') => (.ok ⟨replayId, events.length, shadowGraph⟩, s')
  | (.error e, s') => (.error (.internal e), s')

/-! ## What is claimed -/

/-- The replay of the events of a product, after their live projection, leaves the graph of the
product as the live projection has left it, changes no other graph, and leaves the shadow graph
empty. -/
def ReplayRebuilds (env : ProjectorEnv) (replayId : Uuid) (product : String)
    (events : List EventEnvelope) : Prop :=
  let live := (Projector.new.projectEach env events).store
  let target := env.iris.productGraph product
  let after := (executeReplay env live replayId events (some target)).2
  (∀ q, q.graph = .named ⟨target⟩ → (q ∈ after ↔ q ∈ live)) ∧
    (∀ q, q.graph ≠ .named ⟨target⟩ → q.graph ≠ .named ⟨shadowGraphIri env replayId⟩ →
      (q ∈ after ↔ q ∈ live)) ∧
    ∀ q ∈ after, q.graph ≠ .named ⟨shadowGraphIri env replayId⟩

/-- The replay is refused before it has written anything: the shadow graph or the resource of the
first event is no IRI. -/
def ReplayRefused (env : ProjectorEnv) (replayId : Uuid) (events : List EventEnvelope) : Prop :=
  env.checks.iri (shadowGraphIri env replayId) ≠ none ∨
    ∃ event ∈ events.head?, env.checks.iri (shadowResource event) ≠ none

/-- An ontology among the events makes something a `ReplayedResource`. -/
def OntologyReplays (env : ProjectorEnv) (events : List EventEnvelope) : Prop :=
  ∃ event ∈ events, event.eventType = "OntologyLoaded" ∧
    ∃ triples, env.turtle (event.strD "content" "") = .ok triples ∧
      ∃ t ∈ triples, (t.predicate = ⟨rdfType⟩ ∨ t.predicate = ⟨rdfsSubclassOf⟩) ∧
        t.object = picloudTerm "ReplayedResource"

/-! ## What the live projection writes -/

theorem productGraph_ne_replayGraph (b : IriBuilder) (product replayId : String) :
    b.productGraph product ≠ b.replayGraph replayId := by
  intro h
  have hlist := congrArg String.toList h
  simp only [IriBuilder.productGraph, IriBuilder.product, IriBuilder.replayGraph,
    String.toList_append, List.append_assoc, List.append_cancel_left_eq] at hlist
  -- the paths part ways at their second character
  have hsecond := congrArg (·[1]?) hlist
  simp at hsecond

theorem keptByInference_platformGraph (env : ProjectorEnv) :
    KeptByInference fun q => PlatformGraph env q.graph where
  subclass := fun _ _ _ _ h _ => h
  transitive := fun _ _ _ _ _ h _ => h

variable {env : ProjectorEnv} {events : List EventEnvelope} {q : Quad} {shadowGraph : String}
  {event : EventEnvelope}

/-- The live projection leaves the shadow graph alone. -/
theorem platformGraph_of_mem_live (hq : q ∈ (Projector.new.projectEach env events).store) :
    PlatformGraph env q.graph := by
  rw [Projector.store_projectEach] at hq
  refine forall_mem_foldl_projected (keptByInference_platformGraph env)
    (fun event _ step hstep r hr => ?_) (by simp [Projector.new]) q hq
  rcases inserts_cases hstep hr with hvoc | honto
  · exact hvoc.2
  · exact honto.2.1

theorem PlatformGraph.ne_shadow {graph : GraphName} (h : PlatformGraph env graph) (replayId : Uuid) :
    graph ≠ .named ⟨shadowGraphIri env replayId⟩ := by
  rcases h with rfl | ⟨product, rfl⟩
  · simp
  · intro heq
    injection heq with heq
    injection heq with heq
    exact productGraph_ne_replayGraph _ _ _ heq

/-- The quad neither makes anything a `ReplayedResource` nor says that a class of them exists. -/
def NotReplayed (q : Quad) : Prop :=
  q.predicate = ⟨rdfType⟩ ∨ q.predicate = ⟨rdfsSubclassOf⟩ →
    q.object ≠ picloudTerm "ReplayedResource"

theorem keptByInference_notReplayed : KeptByInference NotReplayed where
  subclass := fun _ _ _ _ h _ _ => h (Or.inr rfl)
  transitive := fun _ _ _ _ _ _ h => h

theorem notReplayed_of_vocabulary (h : Vocabulary q.predicate q.object) :
    NotReplayed q := by
  rcases h with ⟨name, hpred⟩ | ⟨-, c, hc, hobj⟩
  · intro hkind
    rw [hpred] at hkind
    simp at hkind
  · intro _ heq
    rw [hobj, picloudTerm, picloudTerm, Term.named.injEq, NamedNode.mk.injEq, pc_inj] at heq
    subst heq
    exact absurd hc (by decide)

/-- Only an ontology makes something a `ReplayedResource`. -/
theorem notReplayed_of_mem_live (h : ¬ OntologyReplays env events)
    (hq : q ∈ (Projector.new.projectEach env events).store) : NotReplayed q := by
  rw [Projector.store_projectEach] at hq
  refine forall_mem_foldl_projected keptByInference_notReplayed
    (fun event hevent step hstep r hr => ?_) (by simp [Projector.new]) q hq
  rcases inserts_cases hstep hr with hvoc | ⟨htype, -, triples, hparse, t, ht, s, heq⟩
  · exact notReplayed_of_vocabulary hvoc.1
  · intro hkind hobj
    refine h ⟨event, hevent, htype, triples, hparse, t, ht, ?_, ?_⟩
    · rw [heq] at hkind
      exact hkind
    · rw [heq] at hobj
      unfold renameTriple Triple.inGraph at hobj
      dsimp only at hobj
      split at hobj
      · simp [picloudTerm] at hobj
      · exact hobj

/-! ## What the replay writes -/

/-- The triple that marks the resource of an event as replayed. -/
def replayedQuad (event : EventEnvelope) (graph : String) : Quad :=
  quad (shadowResource event) rdfType (picloudTerm "ReplayedResource") (.named ⟨graph⟩)

theorem executeReplay_store (env : ProjectorEnv) (s : Store) (replayId : Uuid)
    (events : List EventEnvelope) (target : Option String) :
    (executeReplay env s replayId events target).2 =
      (runScript env.checks s (replayScript (shadowGraphIri env replayId) events target)).2 := by
  unfold executeReplay
  dsimp only
  split <;> simp [*]

/-- A refused replay changes nothing. -/
theorem executeReplay_refused {replayId : Uuid} (h : ReplayRefused env replayId events) (s : Store)
    (target : Option String) :
    (executeReplay env s replayId events target).2 = s := by
  rw [executeReplay_store, replayScript, runScript, Step.run]
  cases hshadow : env.checks.iri (shadowGraphIri env replayId) with
  | some e => rw [runOps_named_error _ hshadow]
  | none =>
    obtain ⟨event, hhead, hres⟩ := h.resolve_left fun hne => hne hshadow
    obtain ⟨e, hres⟩ := Option.ne_none_iff_exists'.mp hres
    obtain ⟨rest, rfl⟩ : ∃ rest, events = event :: rest :=
      ⟨events.tail, (List.cons_head?_tail hhead).symm⟩
    rw [runOps_named_ok _ hshadow, List.flatMap_cons, projectToShadow, insertTripleInGraph,
      List.cons_append, List.cons_append, runOps_named_error _ hres]

/-- The replay of no events leaves an empty store empty. -/
theorem executeReplay_nil (env : ProjectorEnv) (replayId : Uuid) (target : Option String) :
    (executeReplay env [] replayId [] target).2 = [] := by
  rw [executeReplay_store]
  refine runScript_invariant (I := fun s => s = []) (fun step hstep s hs => ?_) rfl
  subst hs
  simp only [replayScript, swapGraphs, List.flatMap_nil, List.mem_cons, List.mem_flatMap,
    List.not_mem_nil, or_false] at hstep
  rcases hstep with rfl | ⟨t, -, rfl | rfl⟩
  · exact runOps_invariant (I := fun s => s = []) (by simp [Op.effect]) rfl
  · exact runOps_invariant (I := fun s => s = []) (by simp [Op.effect, Store.removeIf]) rfl
  · rfl

/-- The loop of a replay that is not refused has marked the resource of its first event, also when
it fails later. -/
theorem mem_replayLoop (hshadow : env.checks.iri shadowGraph = none)
    (hres : env.checks.iri (shadowResource event) = none) (events : List EventEnvelope) (s : Store) :
    replayedQuad event shadowGraph ∈ (runOps env.checks s
      (.named "invalid shadow graph IRI: " shadowGraph ::
        (event :: events).flatMap (projectToShadow shadowGraph))).2 := by
  rw [runOps_named_ok _ hshadow, List.flatMap_cons, projectToShadow, insertTripleInGraph]
  simp only [List.cons_append, List.nil_append]
  rw [runOps_named_ok _ hres, runOps_named_ok _ env.iri_rdfType, runOps_named_ok _ hshadow,
    runOps_put]
  refine mem_runOps_of_mem (fun p hp => ?_) (Store.mem_insert.mpr (Or.inr rfl))
  simp [insertTripleInGraph, projectToShadow] at hp

/-- The swap leaves a copy of what was in the shadow graph, or has not begun. -/
theorem mem_swapGraphs {target : String} (hne : target ≠ shadowGraph) {s : Store}
    (hq : replayedQuad event shadowGraph ∈ s) (hshadow : env.checks.iri shadowGraph = none) :
    replayedQuad event shadowGraph ∈ (runScript env.checks s (swapGraphs target shadowGraph)).2 ∨
      replayedQuad event target ∈ (runScript env.checks s (swapGraphs target shadowGraph)).2 := by
  rw [swapGraphs, runScript, Step.run]
  cases htarget : env.checks.iri target with
  | some e =>
    rw [runOps_named_error _ htarget]
    exact Or.inl hq
  | none =>
    have hcleared : replayedQuad event shadowGraph ∈ s.removeIf (inNamedGraph target).matches := by
      refine Store.mem_removeIf.mpr ⟨hq, ?_⟩
      simp [inNamedGraph, replayedQuad, quad, Pattern.matches, admits, hne]
    have hrun : runOps env.checks s [.named "invalid target graph IRI: " target,
        .del (inNamedGraph target), .named "invalid shadow graph IRI: " shadowGraph] =
          (.ok (), s.removeIf (inNamedGraph target).matches) := by
      rw [runOps_named_ok _ htarget]
      exact runOps_named_ok _ hshadow _ _ []
    rw [hrun]
    right
    show _ ∈ (runScript _ _ _).2
    rw [runScript_singleton, Step.run]
    refine mem_runOps_of_put ?_ ?_ ?_ _
    · intro op hop
      simp only [copyAndClean, List.mem_append, List.mem_map] at hop
      rcases hop with ⟨q, -, rfl⟩ | ⟨q, -, rfl⟩ <;> rfl
    · intro p hp
      simp only [copyAndClean, List.mem_append, List.mem_map, reduceCtorEq, and_false, exists_false,
        Op.del.injEq, false_or] at hp
      obtain ⟨q, hshadowed, rfl⟩ := hp
      rw [Bool.eq_false_iff, Ne, Quad.pattern_matches]
      rintro rfl
      simp [inNamedGraph, replayedQuad, quad, Pattern.matches_iff, hne.symm] at hshadowed
    · refine List.mem_append_left _ (List.mem_map.mpr ⟨replayedQuad event shadowGraph, ?_, rfl⟩)
      rw [Store.mem_quadsForPattern]
      exact ⟨hcleared, by simp [inNamedGraph, replayedQuad, quad, Pattern.matches_iff]⟩

/-- A replay that is not refused leaves the mark of its first event, in the shadow graph or in the
target. -/
theorem mem_executeReplay {replayId : Uuid} (h : ¬ ReplayRefused env replayId (event :: events))
    (s : Store) {target : String} (hne : target ≠ shadowGraphIri env replayId) :
    let after := (executeReplay env s replayId (event :: events) (some target)).2
    replayedQuad event (shadowGraphIri env replayId) ∈ after ∨ replayedQuad event target ∈ after := by
  obtain ⟨hshadow, hres⟩ := not_or.mp h
  rw [not_not] at hshadow
  have hres' : env.checks.iri (shadowResource event) = none := by
    by_contra hsome
    exact hres ⟨event, rfl, hsome⟩
  have hloop := mem_replayLoop hshadow hres' events s
  dsimp only
  rw [executeReplay_store, replayScript, runScript, Step.run]
  cases hr : runOps env.checks s (.named "invalid shadow graph IRI: "
      (shadowGraphIri env replayId) ::
        (event :: events).flatMap (projectToShadow (shadowGraphIri env replayId))) with
  | mk r s' =>
    rw [hr] at hloop
    cases r with
    | error e => exact Or.inl hloop
    | ok u =>
      simpa using mem_swapGraphs hne hloop hshadow

/-! ## When the replay rebuilds the projection -/

/-- **A replay rebuilds the projection when there is nothing to replay or it is refused, and in no
other case**, unless an ontology among the events has itself marked resources as replayed. -/
theorem replay_rebuilds_spec (env : ProjectorEnv) (replayId : Uuid) (product : String)
    (events : List EventEnvelope) :
    (events = [] ∨ ReplayRefused env replayId events → ReplayRebuilds env replayId product events) ∧
      (ReplayRebuilds env replayId product events →
        events = [] ∨ ReplayRefused env replayId events ∨ OntologyReplays env events) := by
  have hshadow : ∀ q ∈ (Projector.new.projectEach env events).store,
      q.graph ≠ .named ⟨shadowGraphIri env replayId⟩ :=
    fun q hq => (platformGraph_of_mem_live hq).ne_shadow replayId
  constructor
  · intro hcond
    have hsame : (executeReplay env (Projector.new.projectEach env events).store replayId events
        (some (env.iris.productGraph product))).2 = (Projector.new.projectEach env events).store := by
      rcases hcond with rfl | hrefused
      · exact executeReplay_nil env replayId _
      · exact executeReplay_refused hrefused _ _
    unfold ReplayRebuilds
    dsimp only
    rw [hsame]
    exact ⟨fun q _ => Iff.rfl, fun q _ _ => Iff.rfl, hshadow⟩
  · rintro ⟨htarget, -, hclean⟩
    cases events with
    | nil => exact Or.inl rfl
    | cons event events =>
      right
      by_cases hrefused : ReplayRefused env replayId (event :: events)
      · exact Or.inl hrefused
      · right
        by_contra honto
        rcases mem_executeReplay hrefused (Projector.new.projectEach env (event :: events)).store
          (productGraph_ne_replayGraph env.iris product replayId.display) with hleft | hcopy
        · exact hclean _ hleft rfl
        · exact notReplayed_of_mem_live honto ((htarget _ rfl).mp hcopy) (Or.inl rfl) rfl

/-- An event of a product. -/
def sampleOrder : EventEnvelope :=
  sampleEvent "ProductEventAppended" (some "shop")
    [("event_iri", .string "https://picloud.local/e1"), ("aggregate_type", .string "Order")]

/-- The replay of one event of a product: the triples of the event are gone from the graph of the
product. -/
theorem replay_loses_product_event :
    ¬ ReplayRebuilds plainEnv 7 "shop" [sampleOrder] ∧
      quad "https://picloud.local/e1" rdfType (picloudTerm "ProductEvent")
        (.named ⟨plainEnv.iris.productGraph "shop"⟩) ∈
          (Projector.new.projectEach plainEnv [sampleOrder]).store ∧
      quad "https://picloud.local/e1" rdfType (picloudTerm "ProductEvent")
        (.named ⟨plainEnv.iris.productGraph "shop"⟩) ∉
          (executeReplay plainEnv (Projector.new.projectEach plainEnv [sampleOrder]).store 7
            [sampleOrder] (some (plainEnv.iris.productGraph "shop"))).2 := by
  have hlive : quad "https://picloud.local/e1" rdfType (picloudTerm "ProductEvent")
      (.named ⟨plainEnv.iris.productGraph "shop"⟩) ∈
        (Projector.new.projectEach plainEnv [sampleOrder]).store := by decide +kernel
  have hafter : quad "https://picloud.local/e1" rdfType (picloudTerm "ProductEvent")
      (.named ⟨plainEnv.iris.productGraph "shop"⟩) ∉
        (executeReplay plainEnv (Projector.new.projectEach plainEnv [sampleOrder]).store 7
          [sampleOrder] (some (plainEnv.iris.productGraph "shop"))).2 := by decide +kernel
  exact ⟨fun h => hafter ((h.1 _ rfl).mpr hlive), hlive, hafter⟩

end Picloud
