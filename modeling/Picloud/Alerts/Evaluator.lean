import Picloud.Lib.Assoc
import Picloud.Lib.Texts
import Picloud.Rdf.Projector

/-!
# The alert evaluator

Reference: `BuiltInAlertEvaluator` of `picloud-http/src/alerts.rs`, `evaluate_alerts` of
`picloud-http/src/metrics.rs` and the alert payloads of `picloud-domain/src/events.rs`.

Floating-point numbers are a type of their own, of which the evaluator uses one comparison and one
format. Times are counted in nanoseconds.
-/

namespace Picloud

open Lib

/-! ## Data -/

/-- `AlertSeverity`. -/
inductive AlertSeverity where
  | info
  | warning
  | critical
deriving DecidableEq

/-- A severity in JSON. -/
def AlertSeverity.text : AlertSeverity → String
  | .info => "info"
  | .warning => "warning"
  | .critical => "critical"

/-- `MetricEntry`. -/
structure MetricEntry (F : Type) where
  name : String
  value : F

/-- `BuiltInAlertRule`. -/
structure BuiltInAlertRule (F : Type) where
  name : String
  metricName : String
  threshold : F
  alertType : String
  severity : AlertSeverity
  messageTemplate : String

/-- `builtin_alert_rules`; `num` is the literal of a whole number. -/
def builtinAlertRules {F : Type} (num : ℕ → F) : List (BuiltInAlertRule F) :=
  [⟨"high-cpu-temp-critical", "cpu_temp_celsius", num 80, "HighCpuTemperature", .critical,
      "CPU temperature above 80 C"⟩,
    ⟨"high-cpu-temp-warning", "cpu_temp_celsius", num 70, "HighCpuTemperature", .warning,
      "CPU temperature above 70 C"⟩,
    ⟨"high-memory-critical", "memory_used_percent", num 90, "HighMemoryUsage", .critical,
      "Memory usage above 90%"⟩,
    ⟨"high-memory-warning", "memory_used_percent", num 80, "HighMemoryUsage", .warning,
      "Memory usage above 80%"⟩,
    ⟨"high-disk-critical", "disk_used_percent", num 90, "HighDiskUsage", .critical,
      "Disk usage above 90%"⟩]

/-- `AlertFiredPayload`. -/
structure AlertFiredPayload where
  alertType : String
  severity : AlertSeverity
  message : String
  resourceIri : ResourceIri
  ruleIri : ResourceIri
  firedAt : ℤ
deriving DecidableEq

/-- `AlertResolvedPayload`. -/
structure AlertResolvedPayload where
  alertType : String
  resourceIri : ResourceIri
  ruleIri : ResourceIri
  resolvedAt : ℤ
deriving DecidableEq

/-- `AlertAction`. -/
inductive AlertAction where
  | fire (payload : AlertFiredPayload)
  | resolve (payload : AlertResolvedPayload)
deriving DecidableEq

/-- `AlertState`. -/
structure AlertState where
  isFiring : Bool
  resolvedAt : Option ℤ
deriving DecidableEq

/-- The states by the name of the rule and the IRI of the resource, an `AlertKey`. -/
abbrev AlertStates := Assoc (String × String) AlertState

/-- `BuiltInAlertEvaluator` without its states, with what it uses of `f64`. -/
structure AlertEvaluator (F : Type) where
  rules : List (BuiltInAlertRule F)
  iris : IriBuilder
  /-- A `u64`. -/
  dampeningSecs : ℕ
  /-- `>`. -/
  gt : F → F → Bool
  /-- `format!("{:.1}", ..)`. -/
  fixed1 : F → String

namespace AlertEvaluator

variable {F : Type} (ev : AlertEvaluator F)

/-! ## Evaluating -/

/-- `n as i64`. -/
def asI64 (n : ℕ) : ℤ := if n < 2 ^ 63 then n else n - 2 ^ 64

/-- `chrono::Duration::seconds(self.dampening_secs as i64)`, which panics outside of its range. -/
def dampening : Option ℤ :=
  let secs := asI64 ev.dampeningSecs
  if -9223372036854775 ≤ secs ∧ secs ≤ 9223372036854775 then some (secs * 10 ^ 9) else none

/-- `s.replace(pat, new)`. -/
def replaceText (s pat new : String) : String :=
  String.ofList (replaceAll pat.toList new.toList s.toList)

/-- The message of a rule for a value. -/
def message (rule : BuiltInAlertRule F) (value : F) : String :=
  replaceText (replaceText rule.messageTemplate "\x7bvalue\x7d" (ev.fixed1 value))
    "\x7bthreshold\x7d" (ev.fixed1 rule.threshold)

/-- The value that a rule checks. -/
def metricValue (metrics : List (MetricEntry F)) (rule : BuiltInAlertRule F) : Option F :=
  (metrics.find? (·.name = rule.metricName)).map MetricEntry.value

/-- What a rule does that fires. -/
def fireAction (nodeIri : ResourceIri) (now : ℤ) (rule : BuiltInAlertRule F) (value : F) :
    AlertAction :=
  .fire ⟨rule.alertType, rule.severity, ev.message rule value, nodeIri,
    ⟨ev.iris.inferenceRule rule.name⟩, now⟩

/-- What a rule does that is resolved. -/
def resolveAction (nodeIri : ResourceIri) (now : ℤ) (rule : BuiltInAlertRule F) : AlertAction :=
  .resolve ⟨rule.alertType, nodeIri, ⟨ev.iris.inferenceRule rule.name⟩, now⟩

/-- The round of `evaluate` for one rule. -/
def evaluateRule (nodeIri : ResourceIri) (metrics : List (MetricEntry F)) (now dampening : ℤ)
    (rule : BuiltInAlertRule F) (states : AlertStates) : Option AlertAction × AlertStates :=
  let key := (rule.name, nodeIri.value)
  match metricValue metrics rule with
  | none => (none, states)
  | some value =>
    let exceedsThreshold := ev.gt value rule.threshold
    let currentState := Assoc.get states key
    let wasFiring := (currentState.map AlertState.isFiring).getD false
    let resolvedAt := currentState.bind AlertState.resolvedAt
    if exceedsThreshold && !wasFiring then
      if resolvedAt.any fun resolvedTime => now - resolvedTime < dampening then (none, states)
      else (some (ev.fireAction nodeIri now rule value), Assoc.set states key ⟨true, none⟩)
    else if !exceedsThreshold && wasFiring then
      (some (ev.resolveAction nodeIri now rule), Assoc.set states key ⟨false, some now⟩)
    else (none, states)

/-- The loop of `evaluate`. -/
def evaluateRules (nodeIri : ResourceIri) (metrics : List (MetricEntry F)) (now dampening : ℤ) :
    List (BuiltInAlertRule F) → AlertStates → List AlertAction × AlertStates
  | [], states => ([], states)
  | rule :: rest, states =>
    let (action, states) := ev.evaluateRule nodeIri metrics now dampening rule states
    let (actions, states) := evaluateRules nodeIri metrics now dampening rest states
    (action.toList ++ actions, states)

/-- `evaluate`. -/
def evaluate (states : AlertStates) (nodeIri : ResourceIri) (metrics : List (MetricEntry F))
    (now : ℤ) : Option (List AlertAction × AlertStates) :=
  ev.dampening.map fun dampening => ev.evaluateRules nodeIri metrics now dampening ev.rules states

/-! ## Events -/

/-- What `EventEnvelope::new` draws for an event. -/
structure EventStamp where
  id : Uuid
  now : ℤ
  correlationId : Uuid

/-- The payload of an action, as JSON; `timeText` is the JSON text of a time. -/
def payloadJson (timeText : ℤ → String) : AlertAction → Json
  | .fire p => .object [("alert_type", .string p.alertType), ("severity", .string p.severity.text),
      ("message", .string p.message), ("resource_iri", .string p.resourceIri.value),
      ("rule_iri", .string p.ruleIri.value), ("fired_at", .string (timeText p.firedAt))]
  | .resolve p => .object [("alert_type", .string p.alertType),
      ("resource_iri", .string p.resourceIri.value), ("rule_iri", .string p.ruleIri.value),
      ("resolved_at", .string (timeText p.resolvedAt))]

/-- The type of the event for an action. -/
def eventType : AlertAction → String
  | .fire _ => "AlertFired"
  | .resolve _ => "AlertResolved"

/-- The event that `evaluate_alerts` appends for an action. -/
def alertEvent (timeText : ℤ → String) (nodeIri : ResourceIri) (stamp : EventStamp)
    (action : AlertAction) : EventEnvelope :=
  EventEnvelope.new stamp.id stamp.now ⟨ev.iris.eventSchema (eventType action) 1⟩ (eventType action)
    nodeIri none stamp.correlationId (payloadJson timeText action)

end AlertEvaluator

/-! ## Runs -/

/-- The states of the evaluator, the graph, and the actions so far. -/
structure AlertRun where
  states : AlertStates
  store : Store
  actions : List AlertAction

/-- The metrics of a node are evaluated. -/
structure Evaluation (F : Type) where
  nodeIri : ResourceIri
  metrics : List (MetricEntry F)
  now : ℤ
  stamps : ℕ → AlertEvaluator.EventStamp

namespace AlertEvaluator

variable {F : Type} (ev : AlertEvaluator F) (env : ProjectorEnv) (timeText : ℤ → String)

/-- An evaluation, and the projection of its events in order. -/
def step (run : AlertRun) (e : Evaluation F) : Option AlertRun :=
  (ev.evaluate run.states e.nodeIri e.metrics e.now).map fun (actions, states) =>
    ⟨states,
      (actions.mapIdx fun i action => ev.alertEvent timeText e.nodeIri (e.stamps i) action).foldl
        (projected env) run.store,
      run.actions ++ actions⟩

end AlertEvaluator

end Picloud
