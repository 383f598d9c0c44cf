import Picloud.Domain.Payload
import Picloud.Lib.Assoc
import Picloud.Lib.JsonLines
import Picloud.Lib.Split

/-!
# The inference engine

Reference: `InferenceEngine` of `picloud-http/src/inference.rs`.

A rule is a CONSTRUCT query. The engine runs it as a SELECT query, compares the triples with those of
the evaluation before, and appends an event for every member that came or went. What the engine
learned is kept for each rule by its IRI, in memory.
-/

namespace Picloud

open Lib

/-- `LoadedRule`. -/
structure LoadedRule where
  iri : ResourceIri
  name : String
  scope : String
  trigger : String
  triggerEvents : List String
  reconciliation : Bool
  constructQuery : String
deriving DecidableEq

/-- `ProducedTriple`. -/
structure ProducedTriple where
  subject : String
  predicate : String
  object : String
deriving DecidableEq

/-- `InferenceEngine` with the log it appends to; `previousTriples` by the IRI of the rule. -/
structure InferenceEngine where
  rules : List LoadedRule
  previousTriples : Assoc String (List ProducedTriple)
  log : List EventEnvelope

/-- What the engine takes from its surroundings. -/
structure InferenceEnv where
  iris : IriBuilder
  /-- `str::to_uppercase`. -/
  toUppercase : String → String
  /-- The order in which a hash set is walked. -/
  iterate : List ProducedTriple → List ProducedTriple
  /-- A walk finds every element, once. -/
  iterate_perm : ∀ l, (iterate l).Perm l

/-- What an evaluation meets: the graph, the appends that fail, and what the events draw. -/
structure InferenceWorld where
  /-- `projector.query`. -/
  query : String → Except PiCloudError (List Json)
  /-- The outcome of the append for a triple. -/
  append : ProducedTriple → Except PiCloudError Unit
  /-- The outcome of the append of the report. -/
  appendReport : Except PiCloudError Unit
  /-- The identifier, the time and the correlation of the event for a triple. -/
  stamp : ProducedTriple → Uuid × ℤ × Uuid
  /-- The same for the report. -/
  reportStamp : Uuid × ℤ × Uuid

/-! ## Queries -/

/-- `&s[n..]`, which panics beyond the end and inside a character. -/
def sliceFrom (s : String) (n : ℕ) : Option String :=
  if n ≤ (utf8 s).length then ofUtf8 ((utf8 s).drop n) else none

/-- `s.find(pat)`: a position in bytes. -/
def findText (s pat : String) : Option ℕ :=
  (breakOn (utf8 pat) (utf8 s)).map fun (before, _) => before.length

/-- `construct_to_select`; `none` is a panic. -/
def constructToSelect (env : InferenceEnv) (construct : String) : Option String :=
  let fallback := "SELECT ?s ?p ?o WHERE \x7b " ++ construct ++ " \x7d"
  match findText (env.toUppercase construct) "WHERE" with
  | none => some fallback
  | some wherePos =>
    (sliceFrom construct (wherePos + 5)).bind fun afterWhere =>
      match findText afterWhere "\x7b" with
      | none => some fallback
      | some bracePos => (sliceFrom afterWhere bracePos).map ("SELECT ?s ?p ?o " ++ ·)

/-- `extract_binding_value`. -/
def extractBindingValue (binding : Json) (var : String) : String :=
  ((binding.get? var).bind fun v => v.asStr.or ((v.get? "value").bind Json.asStr)).getD ""

/-- The triple of a binding, when it is complete. -/
def bindingTriple (binding : Json) : Option ProducedTriple :=
  let subject := extractBindingValue binding "s"
  let predicate := extractBindingValue binding "p"
  let object := extractBindingValue binding "o"
  if subject ≠ "" ∧ predicate ≠ "" ∧ object ≠ "" then some ⟨subject, predicate, object⟩ else none

/-- The triples a rule produces in a graph: `none` is a panic. -/
def producedTriples (env : InferenceEnv) (rule : LoadedRule) (world : InferenceWorld) :
    Option (Except PiCloudError (List ProducedTriple)) :=
  (constructToSelect env rule.constructQuery).map fun selectQuery =>
    (world.query selectQuery).map fun bindings => (bindings.filterMap bindingTriple).dedup

/-! ## Evaluating a rule -/

/-- The predicate of group membership. -/
def hasMemberPred : String := "https://picloud.local/ontology#hasMember"

namespace InferenceEngine

variable (env : InferenceEnv)

/-- `register_rule`: a rule with the same IRI is replaced. -/
def registerRule (engine : InferenceEngine) (rule : LoadedRule) : InferenceEngine :=
  { engine with rules := engine.rules.filter (·.iri ≠ rule.iri) ++ [rule] }

/-- The event for a member that came or went. -/
def membershipEvent (world : InferenceWorld) (rule : LoadedRule) (action : String)
    (triple : ProducedTriple) : EventEnvelope :=
  let (id, now, correlationId) := world.stamp triple
  EventEnvelope.new id now ⟨env.iris.eventSchema "GroupMembershipChanged" 1⟩
    "GroupMembershipChanged" rule.iri none correlationId
    (.object [("group_iri", .string triple.subject), ("member_iri", .string triple.object),
      ("action", .string action)])

/-- A count in JSON. -/
def countJson (n : ℕ) : Json := .number (.posInt (UInt64.ofNat n))

/-- The event that reports an evaluation with changes. -/
def reportEvent (world : InferenceWorld) (rule : LoadedRule) (assertions retractions : ℕ) :
    EventEnvelope :=
  let (id, now, correlationId) := world.reportStamp
  EventEnvelope.new id now ⟨env.iris.eventSchema "InferenceRuleEvaluated" 1⟩
    "InferenceRuleEvaluated" rule.iri none correlationId
    (.object [("rule_iri", .string rule.iri.value), ("assertions", countJson assertions),
      ("retractions", countJson retractions)])

/-- The events of one loop that reach the log: an error is reported, and the loop goes on. -/
def emit (world : InferenceWorld) (rule : LoadedRule) (action : String)
    (triples : List ProducedTriple) : List EventEnvelope :=
  (triples.filter fun triple => triple.predicate = hasMemberPred ∧
    (world.append triple).isOk = true).map (membershipEvent env world rule action)

/-- `evaluate_rule`; `none` is a panic. -/
def evaluateRule (engine : InferenceEngine) (rule : LoadedRule) (world : InferenceWorld) :
    Option (Except PiCloudError (ℕ × ℕ) × InferenceEngine) :=
  (producedTriples env rule world).map fun
    | .error e => (.error e, engine)
    | .ok currentTriples =>
      let previous := (Assoc.get engine.previousTriples rule.iri.value).getD []
      let assertions := env.iterate (currentTriples.filter (· ∉ previous))
      let retractions := env.iterate (previous.filter (· ∉ currentTriples))
      let report :=
        if (0 < assertions.length ∨ 0 < retractions.length) ∧ world.appendReport.isOk = true then
          [reportEvent env world rule assertions.length retractions.length]
        else []
      (.ok (assertions.length, retractions.length),
        { engine with
          previousTriples := Assoc.set engine.previousTriples rule.iri.value currentTriples
          log := engine.log ++ emit env world rule "added" assertions ++
            emit env world rule "removed" retractions ++ report })

/-! ## Passes -/

/-- The evaluations of a pass, in order: the answers, and the engine after them. -/
def evaluateAll (engine : InferenceEngine) (world : LoadedRule → InferenceWorld) :
    List LoadedRule → Option (List (Except PiCloudError (ℕ × ℕ)) × InferenceEngine)
  | [] => some ([], engine)
  | rule :: rules =>
    (engine.evaluateRule env rule (world rule)).bind fun (answer, engine) =>
      (evaluateAll engine world rules).map fun (answers, engine) => (answer :: answers, engine)

/-- `evaluate_triggered_rules`. -/
def evaluateTriggeredRules (engine : InferenceEngine) (world : LoadedRule → InferenceWorld)
    (eventType : String) : Option InferenceEngine :=
  (engine.evaluateAll env world (engine.rules.filter fun rule =>
    rule.trigger = "event" ∧ eventType ∈ rule.triggerEvents)).map Prod.snd

/-- The event that ends a reconciliation. -/
def reconciliationEvent (world : InferenceWorld) (evaluated assertions retractions : ℕ) :
    EventEnvelope :=
  let (id, now, correlationId) := world.reportStamp
  EventEnvelope.new id now ⟨env.iris.eventSchema "ReconciliationCompleted" 1⟩
    "ReconciliationCompleted" ⟨"https://picloud.local/inference-engine"⟩ none correlationId
    (.object [("rules_evaluated", countJson evaluated), ("total_assertions", countJson assertions),
      ("total_retractions", countJson retractions)])

/-- `run_reconciliation`; `last` is what its own append meets. -/
def runReconciliation (engine : InferenceEngine) (world : LoadedRule → InferenceWorld)
    (last : InferenceWorld) : Option ((ℕ × ℕ) × InferenceEngine) :=
  (engine.evaluateAll env world (engine.rules.filter (·.reconciliation))).map
    fun (answers, engine) =>
      let counts := answers.filterMap Except.toOption
      let totalAssertions := (counts.map Prod.fst).sum
      let totalRetractions := (counts.map Prod.snd).sum
      let event := reconciliationEvent env last counts.length totalAssertions totalRetractions
      ((totalAssertions, totalRetractions),
        if last.appendReport.isOk then { engine with log := engine.log ++ [event] } else engine)

end InferenceEngine

end Picloud
