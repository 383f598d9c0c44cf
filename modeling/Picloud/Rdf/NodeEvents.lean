import Picloud.Rdf.Primitives

/-!
# Handlers of node events

Reference: `project_node_joined` to `project_self_monitoring` and `project_metric_recorded` of
`picloud-rdf/src/implementation.rs`.
-/

namespace Picloud

open Lib

/-- `project_node_joined`. -/
def projectNodeJoined (event : EventEnvelope) : Script :=
  let nodeId := event.strD "node_id" ""
  let nodeName := event.strD "node_name" ""
  let nodeIri := event.iriOrSource "node_iri"
  let address := event.strD "address" ""
  [.ops (insertTriple nodeIri rdfType (picloudTerm "Node") ++
    insertTriple nodeIri (pc "nodeId") (simple nodeId) ++
    insertTriple nodeIri (pc "nodeName") (simple nodeName) ++
    insertTriple nodeIri (pc "address") (simple address) ++
    insertTriple nodeIri (pc "status") (simple "joined"))]

/-- The `hasRole Leader` quad of a node. -/
def leaderQuad (nodeIri : String) : Quad :=
  quad nodeIri (pc "hasRole") (picloudTerm "Leader") .default

/-- The removals of `project_leader_elected`: one for each row of the query for the leaders. A row
whose node does not parse as an IRI is passed over. -/
def removeLeaders (env : ProjectorEnv) (s : Store) : List Op :=
  (env.scan (s.quadsForPattern
    ⟨none, some ⟨pc "hasRole"⟩, some (picloudTerm "Leader"), some .default⟩)).flatMap fun q =>
      match env.checks.iri q.subject.text with
      | none => [.del (leaderQuad q.subject.text).pattern]
      | some _ => []

/-- `project_leader_elected`. -/
def projectLeaderElected (env : ProjectorEnv) (event : EventEnvelope) : Script :=
  let nodeIri := event.iriOrSource "node_iri"
  [.read (removeLeaders env),
    .ops (insertTriple nodeIri (pc "hasRole") (picloudTerm "Leader"))]

/-- `project_node_left`. -/
def projectNodeLeft (event : EventEnvelope) : Script :=
  [.ops (removeTriplesAboutAllGraphs (event.iriOrSource "node_iri"))]

/-- `upsert_node_drain_status`. -/
def upsertNodeDrainStatus (nodeIri status : String) : List Op :=
  .named "invalid node IRI: " nodeIri :: clearInDefault nodeIri (pc "drainStatus") ++
    insertTriple nodeIri (pc "drainStatus") (simple status)

/-- `project_node_cordoned`. -/
def projectNodeCordoned (event : EventEnvelope) : Script :=
  [.ops (upsertNodeDrainStatus (event.iriOrSource "node_iri") "cordoned")]

/-- `project_node_uncordoned`. -/
def projectNodeUncordoned (event : EventEnvelope) : Script :=
  [.ops (upsertNodeDrainStatus (event.iriOrSource "node_iri") "active")]

/-- `project_node_drain_started`: it also records how many workloads are drained. -/
def projectNodeDrainStarted (event : EventEnvelope) : Script :=
  let nodeIri := event.iriOrSource "node_iri"
  [.ops (upsertNodeDrainStatus nodeIri "draining" ++
    (event.payload.index "workload_count").asU64.toList.flatMap fun count =>
      insertTriple nodeIri (pc "drainingWorkloadCount") (simple (toString count)))]

/-- `project_node_drain_completed`. -/
def projectNodeDrainCompleted (event : EventEnvelope) : Script :=
  [.ops (upsertNodeDrainStatus (event.iriOrSource "node_iri") "drained")]

/-- `project_workload_migrated`. -/
def projectWorkloadMigrated (event : EventEnvelope) : Script :=
  let workloadIri := event.iriOrSource "workload_iri"
  let toNodeIri := event.strD "to_node_iri" ""
  [.ops (.named "invalid workload IRI: " workloadIri ::
    clearInDefault workloadIri (pc "scheduledOn") ++
    if toNodeIri = "" then []
    else insertNode workloadIri (pc "scheduledOn") "invalid node IRI: " toNodeIri)]

/-! ## Self-monitoring -/

/-- The triples of one health check. -/
def healthCheck (nodeIri : String) (check : Json) : List Op :=
  let checkName := (check.index "check_name").asStr.getD "unknown"
  let checkStatus := (check.index "status").asStr.getD "unknown"
  let checkMessage := (check.index "message").asStr.getD ""
  let checkIri := nodeIri ++ "/checks/" ++ checkName
  insertNode nodeIri (pc "hasHealthCheck") "invalid check IRI: " checkIri ++
    insertTriple checkIri rdfType (picloudTerm "HealthCheck") ++
    insertTriple checkIri (pc "checkName") (simple checkName) ++
    insertTriple checkIri (pc "checkStatus") (simple checkStatus) ++
    insertTriple checkIri (pc "checkMessage") (simple checkMessage)

/-- The removal of the old health checks: everything about each check the node links to, and the
link. -/
def removeHealthChecks (env : ProjectorEnv) (nodeIri : String) (s : Store) : List Op :=
  .named "invalid predicate IRI: " (pc "hasHealthCheck") ::
    (env.scan (s.quadsForPattern
      (valuesOf nodeIri (pc "hasHealthCheck") (some .default)))).flatMap fun q =>
        (match q.object with
          | .named check => removeTriplesAbout check.value
          | _ => []) ++ [.del q.pattern]

/-- `project_self_monitoring`. -/
def projectSelfMonitoring (env : ProjectorEnv) (event : EventEnvelope) : Script :=
  let nodeIri := event.iriOrSource "node_iri"
  let overallStatus := event.strD "overall_status" "unknown"
  [.ops (.named "invalid node IRI: " nodeIri ::
      clearInDefault nodeIri (pc "selfMonitoringStatus") ++
      insertTriple nodeIri (pc "selfMonitoringStatus") (simple overallStatus) ++
      clearInDefault nodeIri (pc "selfMonitoringCheckedAt") ++
      insertTriple nodeIri (pc "selfMonitoringCheckedAt")
        (typed (env.rfc3339 event.timestamp) xsdDateTime)),
    .read (removeHealthChecks env nodeIri),
    .ops (((event.payload.index "checks").asArray.getD []).flatMap (healthCheck nodeIri))]

/-! ## Metrics -/

/-- `metric_predicates`. -/
def metricPredicates : List (String × String) :=
  [("cpu_usage_percent", "cpuUsagePercent"), ("memory_used_mb", "memoryUsedMb"),
    ("memory_total_mb", "memoryTotalMb"), ("disk_used_gb", "diskUsedGb"),
    ("disk_total_gb", "diskTotalGb"), ("cpu_temp_celsius", "cpuTempCelsius")]

/-- The triple of one metric; a name that is not known is passed over. -/
def metricTriple (env : ProjectorEnv) (nodeIri : String) (metric : Json) : List Op :=
  let name := (metric.index "name").asStr.getD ""
  let value := match metric.index "value" with
    | .number n => env.f64Text n
    -- `as_f64().unwrap_or(0.0)`
    | _ => "0"
  (metricPredicates.lookup name).toList.flatMap fun predicate =>
    insertTriple nodeIri (pc predicate) (typed value xsdDouble)

/-- `project_metric_recorded`. -/
def projectMetricRecorded (env : ProjectorEnv) (event : EventEnvelope) : Script :=
  let nodeIri := event.iriOrSource "node_iri"
  match (event.payload.index "metrics").asArray with
  | none => []
  | some metrics =>
    [.ops (.named "invalid node IRI: " nodeIri ::
      metricPredicates.flatMap (fun p => clearInDefault nodeIri (pc p.2)) ++
      clearInDefault nodeIri (pc "metricsUpdatedAt") ++
      metrics.flatMap (metricTriple env nodeIri) ++
      insertTriple nodeIri (pc "metricsUpdatedAt")
        (typed (env.rfc3339 event.timestamp) xsdDateTime))]

end Picloud
