import Picloud.Lib.Registers
import Picloud.Rdf.Facts

/-!
# Runs of node events

Reference: the handlers of the node events of `picloud-rdf/src/implementation.rs`, from `project_node_joined` to
`project_workload_migrated`.

Each fact about a node is a register. Joining only adds an address, and a drain only adds a count, so a second
value stands beside the first until the node leaves.
-/

namespace Picloud

open Lib

/-- The events about nodes. -/
def nodeEventTypes : List String :=
  ["NodeJoined", "NodeLeft", "LeaderElected", "NodeCordoned", "NodeUncordoned", "NodeDrainStarted",
    "NodeDrainCompleted", "WorkloadMigrated"]

/-- The facts that they are about. -/
inductive NodeFact where
  | address
  | status
  | drainStatus
  | drainingWorkloadCount
  | leader
  | scheduledOn
deriving DecidableEq

/-- The property of a fact. -/
def NodeFact.property : NodeFact → String
  | .address => "address"
  | .status => "status"
  | .drainStatus => "drainStatus"
  | .drainingWorkloadCount => "drainingWorkloadCount"
  | .leader => "hasRole"
  | .scheduledOn => "scheduledOn"

/-- The node of an event. -/
def nodeOf (event : EventEnvelope) : String := event.iriOrSource "node_iri"

/-- The workload of a migration. -/
def workloadOf (event : EventEnvelope) : String := event.iriOrSource "workload_iri"

/-- The status of a drain after an event. -/
def drainLabel (eventType : String) : Option String :=
  [("NodeCordoned", "cordoned"), ("NodeUncordoned", "active"), ("NodeDrainStarted", "draining"),
    ("NodeDrainCompleted", "drained")].lookup eventType

/-- What an event gives a node or a workload. -/
def given (x : String) (f : NodeFact) (event : EventEnvelope) : Option Term :=
  match f with
  | .address => if event.eventType = "NodeJoined" ∧ nodeOf event = x then some (simple (event.strD "address" ""))
    else none
  | .status => if event.eventType = "NodeJoined" ∧ nodeOf event = x then some (simple "joined") else none
  | .drainStatus => if nodeOf event = x then (drainLabel event.eventType).map simple else none
  | .drainingWorkloadCount => if event.eventType = "NodeDrainStarted" ∧ nodeOf event = x then
      (event.payload.index "workload_count").asU64.map fun count => simple (toString count)
    else none
  | .leader => if event.eventType = "LeaderElected" ∧ nodeOf event = x then some (picloudTerm "Leader") else none
  | .scheduledOn => if event.eventType = "WorkloadMigrated" ∧ workloadOf event = x ∧
      event.strD "to_node_iri" "" ≠ "" then some (node (event.strD "to_node_iri" "")) else none

/-- The node leaves. -/
abbrev Leaves (x : String) (event : EventEnvelope) : Prop := event.eventType = "NodeLeft" ∧ nodeOf event = x

/-- The workload migrates. -/
abbrev Migrates (x : String) (event : EventEnvelope) : Prop :=
  event.eventType = "WorkloadMigrated" ∧ workloadOf event = x

/-- A fact is to be what the last event says that is about it: an election is about every node. -/
def Sets (x : String) (f : NodeFact) (event : EventEnvelope) : Prop :=
  match f with
  | .leader => Leaves x event ∨ event.eventType = "LeaderElected"
  | .scheduledOn => Migrates x event
  | f => Leaves x event ∨ (given x f event).isSome = true

instance (x : String) (f : NodeFact) : DecidablePred (Sets x f) := fun _ =>
  match f with
  | .address => inferInstanceAs (Decidable (_ ∨ _))
  | .status => inferInstanceAs (Decidable (_ ∨ _))
  | .drainStatus => inferInstanceAs (Decidable (_ ∨ _))
  | .drainingWorkloadCount => inferInstanceAs (Decidable (_ ∨ _))
  | .leader => inferInstanceAs (Decidable (_ ∨ _))
  | .scheduledOn => inferInstanceAs (Decidable (_ ∧ _))

/-- The current value of a fact. -/
def current (x : String) (f : NodeFact) (events : List EventEnvelope) : Option Term :=
  lastValue (Sets x f) (given x f) events

/-- The facts about nodes are current: each has the value of the last event that sets it and no other, and there is
one leader at most. -/
structure NodeFactsCurrent (events : List EventEnvelope) (s : Store) : Prop where
  current : ∀ x f o, Has s x f.property o ↔ current x f events = some o
  oneLeader : ∀ x y, Has s x "hasRole" (picloudTerm "Leader") → Has s y "hasRole" (picloudTerm "Leader") → x = y

/-- The events since a node last left. -/
def sinceLeft (x : String) (events : List EventEnvelope) : List EventEnvelope := sinceLast (Leaves x) events

/-- Since a node last left it joins with one address and is drained with one count of workloads, and what migrates
to a node does not leave as a node afterwards. -/
structure NodesSteady (events : List EventEnvelope) : Prop where
  address : ∀ x, ∀ e ∈ sinceLeft x events, ∀ e' ∈ sinceLeft x events, ∀ o o',
    given x .address e = some o → given x .address e' = some o' → o = o'
  count : ∀ x, ∀ e ∈ sinceLeft x events, ∀ e' ∈ sinceLeft x events, ∀ o o',
    given x .drainingWorkloadCount e = some o → given x .drainingWorkloadCount e' = some o' → o = o'
  workload : ∀ x, current x .scheduledOn events ≠ none →
    ∀ e ∈ sinceLast (Migrates x) events, ¬ Leaves x e

/-! ## What the handlers do -/

/-- What the projection of an event removes. -/
def Removes (x : String) (f : NodeFact) (event : EventEnvelope) : Prop :=
  match f with
  | .drainStatus => Leaves x event ∨ (given x .drainStatus event).isSome = true
  | .leader => Leaves x event ∨ event.eventType = "LeaderElected"
  | .scheduledOn => Leaves x event ∨ Migrates x event
  | _ => Leaves x event

instance (x : String) (f : NodeFact) : DecidablePred (Removes x f) := fun _ =>
  match f with
  | .address => inferInstanceAs (Decidable (_ ∧ _))
  | .status => inferInstanceAs (Decidable (_ ∧ _))
  | .drainStatus => inferInstanceAs (Decidable (_ ∨ _))
  | .drainingWorkloadCount => inferInstanceAs (Decidable (_ ∧ _))
  | .leader => inferInstanceAs (Decidable (_ ∨ _))
  | .scheduledOn => inferInstanceAs (Decidable (_ ∨ _))

/-- The roles in the graph are those of leaders, and these are IRIs. -/
def OnlyLeaders (checks : TermChecks) (s : Store) : Prop :=
  ∀ x o, Has s x "hasRole" o → o = picloudTerm "Leader" ∧ checks.iri x = none

section Step

variable {env : ProjectorEnv} {event : EventEnvelope} {s : Store} {x : String} {f : NodeFact} {o : Term}

theorem property_injective : Function.Injective NodeFact.property := by
  intro f g h
  cases f <;> cases g <;> first | rfl | exact absurd h (by decide)

/-- Removals, and then insertions. -/
theorem has_removed_inserted {dels puts : List Op} {name : String} (hscript : script env event = [.ops (dels ++ puts)])
    (hok : (projectStore env s event).1 = .ok ()) (hdels : ∀ q, Op.put q ∉ dels) (hputs : ∀ p, Op.del p ∉ puts) :
    Has (projected env s event) x name o ↔
      (Has s x name o ∧ ∀ p, Op.del p ∈ dels → p.matches (quad x (pc name) o .default) = false) ∨
        Op.put (quad x (pc name) o .default) ∈ puts := by
  obtain ⟨hiff, hstore⟩ := projectStore_ops s hscript
  unfold Has
  rw [hstore]
  exact mem_runOps_append (hiff.mp hok) hdels hputs

theorem matches_valuesOf {y name name' : String} :
    (valuesOf y (pc name') (some .default)).matches (quad x (pc name) o .default) = false ↔
      ¬ (x = y ∧ name = name') := by
  rw [Bool.eq_false_iff, Ne, valuesOf_matches_iff]
  simp [quad]

theorem matches_aboutIri {y name : String} :
    (aboutIri y).matches (quad x (pc name) o .default) = false ↔ x ≠ y := by
  rw [Bool.eq_false_iff, Ne, Pattern.matches_iff, aboutIri]
  simp only [quad, admits_some, admits_none, and_true, Subject.named.injEq, NamedNode.mk.injEq]
  exact not_congr eq_comm

/-- The count that a drain adds. -/
def drainedCount (event : EventEnvelope) : List Op :=
  if event.eventType = "NodeDrainStarted" then
    (event.payload.index "workload_count").asU64.toList.flatMap fun count =>
      insertTriple (nodeOf event) (pc "drainingWorkloadCount") (simple (toString count))
  else []

theorem script_drain {label : String} (h : drainLabel event.eventType = some label) :
    script env event = [.ops ((.named "invalid node IRI: " (nodeOf event) ::
      clearInDefault (nodeOf event) (pc "drainStatus")) ++
        (insertTriple (nodeOf event) (pc "drainStatus") (simple label) ++ drainedCount event))] := by
  have hcases : (event.eventType, label) ∈ [("NodeCordoned", "cordoned"), ("NodeUncordoned", "active"),
      ("NodeDrainStarted", "draining"), ("NodeDrainCompleted", "drained")] := by
    obtain ⟨l₁, l₂, heq, -⟩ := List.lookup_eq_some_iff.mp h
    rw [heq]
    simp
  simp only [List.mem_cons, Prod.mk.injEq, List.not_mem_nil, or_false] at hcases
  rw [drainedCount]
  rcases hcases with ⟨htype, rfl⟩ | ⟨htype, rfl⟩ | ⟨htype, rfl⟩ | ⟨htype, rfl⟩
  · rw [script, htype, if_neg (by decide), List.append_nil]
    rfl
  · rw [script, htype, if_neg (by decide), List.append_nil]
    rfl
  · rw [script, htype, if_pos rfl, ← List.append_assoc]
    rfl
  · rw [script, htype, if_neg (by decide), List.append_nil]
    rfl

/-- What a projection does to the facts. -/
def Updates (env : ProjectorEnv) (s : Store) (event : EventEnvelope) : Prop :=
  ∀ x f o, Has (projected env s event) x (NodeFact.property f) o ↔
    (Has s x f.property o ∧ ¬ Removes x f event) ∨ given x f event = some o

theorem quad_eq_iff {a a' p p' : String} {o o' : Term} {g g' : GraphName} :
    quad a p o g = quad a' p' o' g' ↔ a = a' ∧ p = p' ∧ o = o' ∧ g = g' := by simp [quad]

theorem updates_joined (htype : event.eventType = "NodeJoined") (hok : (projectStore env s event).1 = .ok ()) :
    Updates env s event := by
  intro x f o
  have hscript : script env event = projectNodeJoined event := by
    rw [script, htype]
    rfl
  obtain ⟨hiff, hstore⟩ := projectStore_ops s (hscript.trans rfl)
  have hlabel : drainLabel "NodeJoined" = none := rfl
  have hkept : ¬ Removes x f event := by
    cases f <;> simp [Removes, given, htype, hlabel]
  unfold Has
  rw [hstore, mem_runOps_of_puts (hiff.mp hok) (by simp)]
  simp only [List.mem_append, put_mem_insertTriple, quad_eq_iff, hkept, not_false_iff, and_true]
  refine or_congr_right ?_
  cases f <;> simp [given, htype, hlabel, NodeFact.property, nodeOf, eq_comm (a := x), eq_comm (a := o)]

theorem updates_left (htype : event.eventType = "NodeLeft") (hok : (projectStore env s event).1 = .ok ()) :
    Updates env s event := by
  intro x f o
  have hscript : script env event = [.ops (removeTriplesAboutAllGraphs (nodeOf event))] := by
    rw [script, htype]
    rfl
  obtain ⟨hiff, hstore⟩ := projectStore_ops s hscript
  have hlabel : drainLabel "NodeLeft" = none := rfl
  have hgiven : given x f event = none := by
    cases f <;> simp [given, htype, hlabel]
  have hremoves : Removes x f event ↔ nodeOf event = x := by
    cases f <;> simp [Removes, Leaves, Migrates, given, htype, hlabel]
  unfold Has
  rw [hstore, mem_runOps_of_no_puts (hiff.mp hok) (by simp [removeTriplesAboutAllGraphs])]
  simp only [removeTriplesAboutAllGraphs, List.mem_cons, reduceCtorEq, Op.del.injEq, List.not_mem_nil, or_false,
    false_or, forall_eq, matches_aboutIri, hgiven, hremoves]
  exact and_congr_right fun _ => not_congr eq_comm

/-- The events of a drain. -/
theorem updates_drain (label : String) (h : drainLabel event.eventType = some label)
    (hother : event.eventType ∉ ["NodeJoined", "NodeLeft", "LeaderElected", "WorkloadMigrated"])
    (hok : (projectStore env s event).1 = .ok ()) : Updates env s event := by
  intro x f o
  simp only [List.mem_cons, List.not_mem_nil, or_false, not_or] at hother
  have hputs : ∀ q, Op.put q ∈ drainedCount event ↔ event.eventType = "NodeDrainStarted" ∧
      ∃ count, (event.payload.index "workload_count").asU64 = some count ∧
        q = quad (nodeOf event) (pc "drainingWorkloadCount") (simple (toString count)) .default := by
    intro q
    rw [drainedCount]
    split_ifs with htype
    · simp [htype]
    · simp [htype]
  have hdels : ∀ p, Op.del p ∉ drainedCount event := by
    intro p
    rw [drainedCount]
    split_ifs <;> simp
  rw [has_removed_inserted (script_drain h) hok (by simp [clearInDefault]) (by simp [hdels])]
  simp only [clearInDefault, List.mem_cons, reduceCtorEq, Op.del.injEq, List.not_mem_nil, or_false,
    false_or, forall_eq, matches_valuesOf, List.mem_append, put_mem_insertTriple, quad_eq_iff, hputs]
  cases f <;> simp [Removes, given, h, hother, NodeFact.property, eq_comm (a := x), eq_comm (a := o)]
  case drainingWorkloadCount =>
    refine or_congr_right ?_
    simp only [and_left_comm, exists_and_left, and_assoc]

theorem updates_migrated (htype : event.eventType = "WorkloadMigrated") (hok : (projectStore env s event).1 = .ok ()) :
    Updates env s event := by
  intro x f o
  have hscript : script env event = [.ops ((.named "invalid workload IRI: " (workloadOf event) ::
      clearInDefault (workloadOf event) (pc "scheduledOn")) ++
        if event.strD "to_node_iri" "" = "" then []
        else insertNode (workloadOf event) (pc "scheduledOn") "invalid node IRI: " (event.strD "to_node_iri" ""))] := by
    rw [script, htype]
    rfl
  have hlabel : drainLabel "WorkloadMigrated" = none := rfl
  rw [has_removed_inserted hscript hok (by simp [clearInDefault]) (by intro p; split_ifs <;> simp)]
  simp only [clearInDefault, List.mem_cons, reduceCtorEq, Op.del.injEq, List.not_mem_nil, or_false,
    false_or, forall_eq, matches_valuesOf]
  by_cases hto : event.strD "to_node_iri" "" = ""
  · rw [if_pos hto]
    cases f <;> simp [Removes, Leaves, Migrates, given, htype, hlabel, hto, NodeFact.property, eq_comm (a := x)]
  · rw [if_neg hto]
    simp only [put_mem_insertNode, quad_eq_iff]
    cases f <;> simp [Removes, Leaves, Migrates, given, htype, hlabel, hto, NodeFact.property, eq_comm (a := x),
      eq_comm (a := o)]

/-- An election removes roles of leaders only. -/
theorem of_del_mem_removeLeaders {p : Pattern} (h : Op.del p ∈ removeLeaders env s) :
    ∃ y, p = (leaderQuad y).pattern := by
  obtain ⟨q, -, hq⟩ := List.mem_flatMap.mp h
  split at hq
  · exact ⟨q.subject.text, by simpa using hq⟩
  · simp at hq

/-- Where the graph has no other roles it removes all. -/
theorem del_mem_removeLeaders (hroles : OnlyLeaders env.checks s) (h : Has s x "hasRole" (picloudTerm "Leader")) :
    Op.del (leaderQuad x).pattern ∈ removeLeaders env s := by
  refine List.mem_flatMap.mpr ⟨leaderQuad x, ?_, ?_⟩
  · exact (env.scan_perm _).mem_iff.mpr
      (Store.mem_quadsForPattern.mpr ⟨h, by simp [Pattern.matches_iff, leaderQuad, quad]⟩)
  · have htext : (leaderQuad x).subject.text = x := rfl
    rw [htext, (hroles x _ h).2]
    exact List.mem_singleton_self _

theorem put_notMem_removeLeaders (q : Quad) : Op.put q ∉ removeLeaders env s := by
  intro h
  obtain ⟨r, -, hr⟩ := List.mem_flatMap.mp h
  split at hr <;> simp at hr

theorem has_removeLeaders (hroles : OnlyLeaders env.checks s)
    (hok : (runOps env.checks s (removeLeaders env s)).1 = .ok ()) :
    Has (runOps env.checks s (removeLeaders env s)).2 x f.property o ↔ Has s x f.property o ∧ f ≠ .leader := by
  unfold Has
  rw [mem_runOps_of_no_puts hok put_notMem_removeLeaders]
  refine and_congr_right fun hmem => ?_
  constructor
  · rintro hkept rfl
    obtain ⟨rfl, -⟩ := hroles x o hmem
    have hfalse := hkept _ (del_mem_removeLeaders hroles hmem)
    rw [Bool.eq_false_iff, Ne, Quad.pattern_matches] at hfalse
    exact hfalse rfl
  · intro hne p hp
    obtain ⟨y, rfl⟩ := of_del_mem_removeLeaders hp
    rw [Bool.eq_false_iff, Ne, Quad.pattern_matches, leaderQuad, quad_eq_iff, pc_inj]
    rintro ⟨-, hproperty, -⟩
    exact hne (property_injective (show f.property = NodeFact.leader.property from hproperty.symm))

theorem updates_elected (htype : event.eventType = "LeaderElected") (hroles : OnlyLeaders env.checks s)
    (hok : (projectStore env s event).1 = .ok ()) :
    Updates env s event ∧ env.checks.iri (nodeOf event) = none := by
  have hscript : script env event = [.read (removeLeaders env),
      .ops (insertTriple (nodeOf event) (pc "hasRole") (picloudTerm "Leader"))] := script_leaderElected htype
  have hrun := runScript_ok_of_projectStore hok
  rw [hscript] at hrun
  obtain ⟨hremoved, hrest⟩ := runScript_cons_of_ok hrun
  rw [hrest, runScript_singleton] at hrun
  have hstore : projected env s event = (runOps env.checks (runOps env.checks s (removeLeaders env s)).2
      (insertTriple (nodeOf event) (pc "hasRole") (picloudTerm "Leader"))).2 := by
    rw [projected_eq, hscript, hrest, runScript_singleton]
    rfl
  have hlabel : drainLabel "LeaderElected" = none := rfl
  refine ⟨fun x f o => ?_, ?_⟩
  · have hinsert : Has (projected env s event) x f.property o ↔
        (Has s x f.property o ∧ f ≠ .leader) ∨
          quad x (pc f.property) o .default = quad (nodeOf event) (pc "hasRole") (picloudTerm "Leader") .default := by
      rw [← has_removeLeaders hroles hremoved, ← put_mem_insertTriple]
      unfold Has
      rw [hstore]
      exact mem_runOps_of_puts hrun (by simp)
    rw [hinsert, quad_eq_iff]
    cases f <;> simp [Removes, Leaves, Migrates, given, htype, hlabel, NodeFact.property, eq_comm (a := x),
      eq_comm (a := o)]
  · have herror := runOps_ok_iff.mp hrun (.named "invalid subject IRI: " (nodeOf event)) (by simp [insertTriple])
    simpa [Op.error] using herror

/-- **Every projection of a node event that succeeds updates the facts.** -/
theorem updates_nodeEvent (htype : event.eventType ∈ nodeEventTypes) (hroles : OnlyLeaders env.checks s)
    (hok : (projectStore env s event).1 = .ok ()) : Updates env s event := by
  simp only [nodeEventTypes, List.mem_cons, List.not_mem_nil, or_false] at htype
  rcases htype with htype | htype | htype | htype | htype | htype | htype | htype
  · exact updates_joined htype hok
  · exact updates_left htype hok
  · exact (updates_elected htype hroles hok).1
  · exact updates_drain "cordoned" (by rw [htype]; rfl) (by rw [htype]; decide) hok
  · exact updates_drain "active" (by rw [htype]; rfl) (by rw [htype]; decide) hok
  · exact updates_drain "draining" (by rw [htype]; rfl) (by rw [htype]; decide) hok
  · exact updates_drain "drained" (by rw [htype]; rfl) (by rw [htype]; decide) hok
  · exact updates_migrated htype hok

end Step

/-! ## Runs -/

/-- The graph after a history: each fact is a register, and the elected nodes are IRIs. -/
structure NodeHistory (checks : TermChecks) (history : List EventEnvelope) (s : Store) : Prop where
  facts : ∀ x f, HoldsSince (Removes x f) (fun e => {o | given x f e = some o}) history {o | Has s x f.property o}
  elected : ∀ e ∈ history, e.eventType = "LeaderElected" → checks.iri (nodeOf e) = none

section Run

variable {env : ProjectorEnv} {history : List EventEnvelope} {event : EventEnvelope} {s : Store} {x : String}
  {o : Term}

theorem given_leader_eq_some : given x .leader event = some o ↔
    event.eventType = "LeaderElected" ∧ nodeOf event = x ∧ o = picloudTerm "Leader" := by
  simp [given, and_assoc, eq_comm (a := o)]

theorem NodeHistory.onlyLeaders (h : NodeHistory env.checks history s) : OnlyLeaders env.checks s := by
  intro x o hrole
  obtain ⟨e, he, hgiven⟩ := (h.facts x .leader o).mp hrole
  obtain ⟨htype, rfl, rfl⟩ := given_leader_eq_some.mp hgiven
  exact ⟨rfl, h.elected e (mem_of_mem_sinceLast he) htype⟩

theorem NodeHistory.step (h : NodeHistory env.checks history s) (htype : event.eventType ∈ nodeEventTypes)
    (hok : (projectStore env s event).1 = .ok ()) :
    NodeHistory env.checks (history ++ [event]) (projected env s event) where
  facts x f := (h.facts x f).step fun o => by
    rw [Set.mem_ofPred_eq, updates_nodeEvent htype h.onlyLeaders hok x f o, and_comm]
    rfl
  elected e he helected := by
    rcases List.mem_append.mp he with he | he
    · exact h.elected e he helected
    · obtain rfl := List.mem_singleton.mp he
      exact (updates_elected helected h.onlyLeaders hok).2

/-- The last election is the one of a leader. -/
theorem lastElected_of_current {events : List EventEnvelope} (h : current x .leader events = some o) :
    (events.filter fun e => e.eventType = "LeaderElected").getLast?.map nodeOf = some x := by
  rw [current] at h
  induction events using List.reverseRecOn with
  | nil => cases h
  | append_singleton events e ih =>
    rw [lastValue_append_singleton] at h
    rw [List.filter_append]
    by_cases helected : e.eventType = "LeaderElected"
    · have hsets : Sets x .leader e := Or.inr helected
      rw [if_pos hsets] at h
      rw [List.filter_cons_of_pos (by simpa using helected), List.filter_nil, List.getLast?_concat, Option.map_some,
        (given_leader_eq_some.mp h).2.1]
    · rw [List.filter_cons_of_neg (by simpa using helected), List.filter_nil, List.append_nil]
      split_ifs at h with hsets
      · exact absurd (given_leader_eq_some.mp h).1 helected
      · exact ih h

/-- The registers hold the last values exactly when the nodes are steady. -/
theorem forall_current_iff (events : List EventEnvelope) :
    (∀ x f o, (∃ e ∈ sinceLast (Removes x f) events, given x f e = some o) ↔ current x f events = some o) ↔
      NodesSteady events := by
  have haddress : ∀ x, (∀ o, (∃ e ∈ sinceLast (Removes x .address) events, given x .address e = some o) ↔
      current x .address events = some o) ↔ _ := fun x => addOnly_iff
  have hcount : ∀ x, (∀ o, (∃ e ∈ sinceLast (Removes x .drainingWorkloadCount) events,
      given x .drainingWorkloadCount e = some o) ↔ current x .drainingWorkloadCount events = some o) ↔ _ :=
    fun x => addOnly_iff
  have hworkload : ∀ x, (∀ o, (∃ e ∈ sinceLast (Removes x .scheduledOn) events, given x .scheduledOn e = some o) ↔
      current x .scheduledOn events = some o) ↔ (current x .scheduledOn events ≠ none →
        ∀ e ∈ sinceLast (Migrates x) events, ¬ Leaves x e) := by
    intro x
    refine alsoCleared_iff (fun e o h => ?_) fun e hleaves hmigrates => ?_
    · simp only [given] at h
      split_ifs at h with hmigrates
      exact ⟨hmigrates.1, hmigrates.2.1⟩
    · exact absurd (hleaves.1.symm.trans hmigrates.1) (by decide)
  constructor
  · intro h
    exact ⟨fun x => (haddress x).mp (h x .address), fun x => (hcount x).mp (h x .drainingWorkloadCount),
      fun x => (hworkload x).mp (h x .scheduledOn)⟩
  · intro h x f
    cases f with
    | address => exact (haddress x).mpr (h.address x)
    | drainingWorkloadCount => exact (hcount x).mpr (h.count x)
    | scheduledOn => exact (hworkload x).mpr (h.workload x)
    | status =>
      refine addOnly_iff.mpr fun e _ e' _ o o' ho ho' => ?_
      simp only [given] at ho ho'
      split_ifs at ho ho'
      exact Option.some.inj (ho.symm.trans ho')
    | drainStatus => exact fun o => exists_mem_sinceLast_iff fun e o ho => Or.inr (by rw [ho]; rfl)
    | leader => exact fun o => exists_mem_sinceLast_iff fun e o ho => Or.inr (given_leader_eq_some.mp ho).1

end Run

/-- **After node events whose projections succeed the facts about nodes are current exactly when the nodes are
steady.** -/
theorem nodeFactsCurrent_iff (env : ProjectorEnv) (events : List EventEnvelope) (p p' : Projector)
    (htypes : ∀ e ∈ events, e.eventType ∈ nodeEventTypes) (hstart : ∀ x f o, ¬ Has p.store x (NodeFact.property f) o)
    (hrun : p.replayLoop env events = (.ok (), p')) :
    NodeFactsCurrent events p'.store ↔ NodesSteady events := by
  have hempty : NodeHistory env.checks [] p.store :=
    ⟨fun x f o => by simpa using hstart x f o, by simp⟩
  have hafter := Projector.replayLoop_history (R := NodeHistory env.checks)
    (fun h s e he hs hok => hs.step (htypes e he) hok) hrun hempty
  have hfacts : ∀ x f o, Has p'.store x (NodeFact.property f) o ↔
      ∃ e ∈ sinceLast (Removes x f) events, given x f e = some o := fun x f o => hafter.facts x f o
  rw [← forall_current_iff]
  constructor
  · intro h x f o
    rw [← hfacts, h.current]
  · intro h
    have hcurrent : ∀ x f o, Has p'.store x (NodeFact.property f) o ↔ current x f events = some o :=
      fun x f o => (hfacts x f o).trans (h x f o)
    refine ⟨hcurrent, fun x y hx hy => ?_⟩
    have hlastx := lastElected_of_current ((hcurrent x .leader _).mp hx)
    have hlasty := lastElected_of_current ((hcurrent y .leader _).mp hy)
    rw [hlastx] at hlasty
    exact Option.some.inj hlasty

/-! ## A node that joins again -/

/-- The node of the samples. -/
def nodeA : String := "https://picloud.local/nodes/a"

/-- The node joins with an address. -/
def nodeJoins (address : String) : EventEnvelope :=
  sampleEvent "NodeJoined" none [("node_iri", .string nodeA), ("address", .string address)]

/-- The node leaves. -/
def nodeLeaves : EventEnvelope := sampleEvent "NodeLeft" none [("node_iri", .string nodeA)]

/-- The node joins, leaves, and joins with another address. -/
def leftBetween : List EventEnvelope := [nodeJoins "10.0.0.1:8443", nodeLeaves, nodeJoins "10.0.0.2:8443"]

theorem nodesSteady_leftBetween : NodesSteady leftBetween where
  address x e he e' he' o o' ho ho' := by
    have hjoins : ∀ e ∈ leftBetween, nodeOf e = nodeA := by decide
    have hsame : ∀ e ∈ sinceLeft nodeA leftBetween, ∀ e' ∈ sinceLeft nodeA leftBetween,
        given nodeA .address e ≠ none → given nodeA .address e' ≠ none →
          given nodeA .address e = given nodeA .address e' := by decide
    obtain rfl : nodeA = x := by
      simp only [given] at ho
      split_ifs at ho with hjoined
      rw [← hjoined.2, hjoins e (mem_of_mem_sinceLast he)]
    have heq := hsame e he e' he' (by simp [ho]) (by simp [ho'])
    rw [ho, ho'] at heq
    exact Option.some.inj heq
  count x e he e' _ o o' ho _ := by
    have hnone : ∀ e ∈ leftBetween, e.eventType ≠ "NodeDrainStarted" := by decide
    simp only [given] at ho
    split_ifs at ho with hstarted
    exact absurd hstarted.1 (hnone e (mem_of_mem_sinceLast he))
  workload x h := by
    have hnone : leftBetween.filter (fun e => Sets x .scheduledOn e) = [] := by
      have hall : ∀ e ∈ leftBetween, e.eventType ≠ "WorkloadMigrated" := by decide
      exact List.filter_eq_nil_iff.mpr fun e he hsets => hall e he (of_decide_eq_true hsets).1
    rw [current, lastValue, hnone] at h
    exact absurd rfl h

/-- A node that leaves in between has one address. -/
theorem nodeFactsCurrent_leftBetween :
    (Projector.new.replayLoop plainEnv leftBetween).1 = .ok () ∧
      NodeFactsCurrent leftBetween (Projector.new.replayLoop plainEnv leftBetween).2.store := by
  have hok : (Projector.new.replayLoop plainEnv leftBetween).1 = .ok () := by decide +kernel
  refine ⟨hok, ?_⟩
  refine (nodeFactsCurrent_iff plainEnv leftBetween Projector.new _ (by decide) (by simp [Projector.new]) ?_).mpr
    nodesSteady_leftBetween
  rw [Prod.ext_iff]
  exact ⟨hok, rfl⟩

/-- A node that joins again with another address has both. -/
theorem not_nodeFactsCurrent_rejoined :
    (Projector.new.replayLoop plainEnv [nodeJoins "10.0.0.1:8443", nodeJoins "10.0.0.2:8443"]).1 = .ok () ∧
      ¬ NodeFactsCurrent [nodeJoins "10.0.0.1:8443", nodeJoins "10.0.0.2:8443"]
        (Projector.new.replayLoop plainEnv [nodeJoins "10.0.0.1:8443", nodeJoins "10.0.0.2:8443"]).2.store := by
  refine ⟨by decide +kernel, fun h => ?_⟩
  have hfirst : Has (Projector.new.replayLoop plainEnv [nodeJoins "10.0.0.1:8443", nodeJoins "10.0.0.2:8443"]).2.store
      nodeA NodeFact.address.property (simple "10.0.0.1:8443") := by decide +kernel
  exact absurd ((h.current nodeA .address _).mp hfirst) (by decide)

end Picloud
