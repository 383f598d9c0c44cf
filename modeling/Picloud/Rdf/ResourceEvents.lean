import Picloud.Rdf.Primitives

/-!
# Handlers of resource events

Reference: `picloud-rdf/src/implementation.rs`, the handlers of resources, identities, tags,
configuration, feature flags, groups and alerts, and `update_status`.
-/

namespace Picloud

open Lib

/-! ## The status of a resource -/

/-- `capitalize_status`. -/
def capitalizeStatus (status : String) : String :=
  match status.toList with
  | [] => ""
  | c :: cs => String.ofList (c.toUpper :: cs)

/-- `update_status`: the old values of `status` are removed, in the default graph and in the graph
of the product; `statusLabel` is only inserted. -/
def updateStatus (env : ProjectorEnv) (resourceIri newStatus : String) (product : Option String) :
    List Op :=
  .named "invalid subject IRI: " resourceIri :: clearInDefault resourceIri (pc "status") ++
    insertTriple resourceIri (pc "status") (picloudTerm (capitalizeStatus newStatus)) ++
    insertTriple resourceIri (pc "statusLabel") (simple newStatus) ++
    product.toList.flatMap fun productName =>
      let graph := env.iris.productGraph productName
      [.named "invalid graph IRI: " graph,
        .del (valuesOf resourceIri (pc "status") (some (.named ⟨graph⟩)))] ++
      insertTripleInGraph resourceIri (pc "status") (picloudTerm (capitalizeStatus newStatus)) graph

/-! ## Declarations -/

/-- The part of `project_resource_declared` for every resource. -/
def declareResource (env : ProjectorEnv) (event : EventEnvelope) (iri resourceType : String) :
    List Op :=
  insertTriple iri rdfType (picloudTerm "Resource") ++
    insertTriple iri (pc "resourceType") (simple resourceType) ++
    insertTriple iri (pc "status") (picloudTerm "Declared") ++
    (event.str "product").toList.flatMap fun product =>
      let graph := env.iris.productGraph product
      insertTriple iri (pc "product") (simple product) ++
        insertTripleInGraph iri rdfType (picloudTerm "Resource") graph ++
        insertTripleInGraph iri (pc "resourceType") (simple resourceType) graph ++
        insertTripleInGraph iri (pc "status") (picloudTerm "Declared") graph

/-- A property taken from a text field of the payload, if it is there. -/
def optionalText (event : EventEnvelope) (iri predicate field : String) : List Op :=
  (event.str field).toList.flatMap fun value => insertTriple iri (pc predicate) (simple value)

/-- A property taken from a text field of the payload, if it is there and not empty. -/
def nonEmptyText (event : EventEnvelope) (iri predicate field : String) : List Op :=
  (event.str field).toList.flatMap fun value =>
    if value = "" then [] else insertTriple iri (pc predicate) (simple value)

/-- A property taken from any field of the payload, as JSON text. -/
def optionalJson (env : ProjectorEnv) (event : EventEnvelope) (iri predicate field : String) :
    List Op :=
  (event.payload.get? field).toList.flatMap fun value =>
    insertTriple iri (pc predicate) (simple (env.jsonText value))

/-- The type of a product-scoped resource, in the graph of the product. -/
def typeInProductGraph (env : ProjectorEnv) (event : EventEnvelope) (iri className : String) :
    List Op :=
  (event.str "product").toList.flatMap fun product =>
    insertTripleInGraph iri rdfType (picloudTerm className) (env.iris.productGraph product)

/-- Groups. -/
def declareGroup (env : ProjectorEnv) (event : EventEnvelope) (iri : String) : List Op :=
  insertTriple iri rdfType (picloudTerm "Group") ++
    ((event.payload.index "roles").asArray.getD []).flatMap (fun role =>
      role.asStr.toList.flatMap fun roleName =>
        insertNode iri (pc "hasRole") "invalid role IRI: "
          (env.iris.resource "platform" "roles" roleName)) ++
    nonEmptyText event iri "description" "description"

/-- The durability tiers, in the spellings that occur. -/
def normalizeDurability (raw : String) : String :=
  if raw = "FullReplication" ∨ raw = "full-replication" ∨ raw = "full_replication" then
    "full-replication"
  else if raw = "Quorum" ∨ raw = "quorum" then "quorum"
  else if raw = "Local" ∨ raw = "local" then "local"
  else if raw = "None" ∨ raw = "none" then "none"
  else raw

/-- The performance tiers, in the spellings that occur. -/
def normalizePerformance (raw : String) : String :=
  if raw = "Standard" ∨ raw = "standard" then "standard"
  else if raw = "Fast" ∨ raw = "fast" then "fast"
  else if raw = "Archive" ∨ raw = "archive" then "archive"
  else raw

/-- Volumes. -/
def declareVolume (env : ProjectorEnv) (event : EventEnvelope) (iri : String) : List Op :=
  let durability := normalizeDurability (event.strD "durability" "FullReplication")
  let performance := normalizePerformance (event.strD "performance" "Standard")
  let replicationFactor := (event.payload.index "replication_factor").asU64.getD
    (if durability = "full-replication" then (event.payload.index "node_count").asU64.getD 1 else 1)
  insertTriple iri rdfType (picloudTerm "Volume") ++
    optionalJson env event iri "sizeGb" "size_gb" ++
    insertTriple iri (pc "blockDevice")
      (simple ("/dev/picloud/" ++ event.strD "name" "unknown")) ++
    insertTriple iri (pc "durability") (simple durability) ++
    insertTriple iri (pc "performance") (simple performance) ++
    insertTriple iri (pc "replicationFactor") (simple (toString replicationFactor)) ++
    insertTriple iri (pc "replicationCount") (simple (toString replicationFactor)) ++
    insertTriple iri (pc "lastSnapshotStatus") (simple "none") ++
    insertTriple iri (pc "lastBackupStatus") (simple "none")

/-- Ingresses; `hostname` is taken from two fields. -/
def declareIngress (env : ProjectorEnv) (event : EventEnvelope) (iri : String) : List Op :=
  insertTriple iri rdfType (picloudTerm "Ingress") ++
    optionalText event iri "name" "name" ++
    optionalText event iri "hostname" "hostname" ++
    optionalText event iri "hostname" "host" ++
    optionalText event iri "targetAddress" "target" ++
    optionalJson env event iri "port" "port"

/-- Containers. -/
def declareContainer (event : EventEnvelope) (iri : String) : List Op :=
  insertTriple iri rdfType (picloudTerm "Container") ++
    optionalText event iri "name" "name" ++
    optionalText event iri "image" "image"

/-- `if enabled { "true" } else { "false" }`. -/
def boolText (b : Bool) : String := if b then "true" else "false"

/-- Feature flags. -/
def declareFeatureFlag (event : EventEnvelope) (iri : String) : List Op :=
  insertTriple iri rdfType (picloudTerm "FeatureFlag") ++
    optionalText event iri "flagName" "name" ++
    insertTriple iri (pc "flagEnabled")
      (simple (boolText ((event.payload.index "enabled").asBool.getD false))) ++
    optionalText event iri "flagVersion" "version"

/-- Inference rules. -/
def declareInferenceRule (event : EventEnvelope) (iri : String) : List Op :=
  insertTriple iri rdfType (picloudTerm "InferenceRule") ++
    optionalText event iri "scope" "scope" ++
    optionalText event iri "constructQuery" "construct_query"

/-- Network policies. -/
def declareNetworkPolicy (event : EventEnvelope) (iri : String) : List Op :=
  insertTriple iri rdfType (picloudTerm "NetworkPolicy") ++
    optionalText event iri "isolationType" "isolation_type"

/-- Event stores, with their aggregates; in the graph of the product the schema files are left
out. -/
def declareEventStore (env : ProjectorEnv) (event : EventEnvelope) (iri : String) : List Op :=
  let aggregates := (event.payload.index "aggregates").asArray.getD []
  insertTriple iri rdfType (picloudTerm "EventStore") ++
    aggregates.flatMap (fun agg =>
      ((agg.index "aggregate_type").asStr.toList.flatMap fun aggType =>
        insertTriple iri (pc "aggregateType") (simple aggType)) ++
      ((agg.index "schema_file").asStr.toList.flatMap fun schemaFile =>
        insertTriple iri (pc "aggregateSchemaFile") (simple schemaFile))) ++
    (event.str "product").toList.flatMap fun product =>
      let graph := env.iris.productGraph product
      insertTripleInGraph iri rdfType (picloudTerm "EventStore") graph ++
        aggregates.flatMap fun agg =>
          (agg.index "aggregate_type").asStr.toList.flatMap fun aggType =>
            insertTripleInGraph iri (pc "aggregateType") (simple aggType) graph

/-- RDF stores; without an endpoint in the payload it is derived from the product. -/
def declareRdfStore (env : ProjectorEnv) (event : EventEnvelope) (iri : String) : List Op :=
  insertTriple iri rdfType (picloudTerm "RdfStore") ++
    (match event.str "sparql_endpoint" with
      | some endpoint =>
        insertNode iri (pc "sparqlEndpoint") "invalid SPARQL endpoint IRI: " endpoint
      | none => (event.str "product").toList.flatMap fun product =>
        insertNode iri (pc "sparqlEndpoint") "invalid SPARQL endpoint IRI: "
          (env.iris.productSparql product)) ++
    ((event.str "backing_volume").toList.flatMap fun volume =>
      insertNode iri (pc "backingVolume") "invalid backing volume IRI: " volume) ++
    typeInProductGraph env event iri "RdfStore"

/-- Event subscriptions. -/
def declareEventSubscription (event : EventEnvelope) (iri : String) : List Op :=
  insertTriple iri rdfType (picloudTerm "EventSubscription") ++
    optionalText event iri "sourceProduct" "source_product" ++
    optionalText event iri "eventType" "event_type" ++
    nonEmptyText event iri "handler" "handler"

/-- Ontologies. -/
def declareOntology (env : ProjectorEnv) (event : EventEnvelope) (iri : String) : List Op :=
  insertTriple iri rdfType (picloudTerm "Ontology") ++
    optionalText event iri "filePath" "file_path" ++
    optionalText event iri "format" "format" ++
    ((event.str "served_at").toList.flatMap fun servedAt =>
      insertNode iri (pc "servedAt") "invalid served_at IRI: " servedAt) ++
    optionalText event iri "version" "version" ++
    typeInProductGraph env event iri "Ontology"

/-- The part of `project_resource_declared` that depends on the type of the resource. No type meets
two of the conditions. -/
def declareByType (env : ProjectorEnv) (event : EventEnvelope) (iri resourceType : String) :
    List Op :=
  if resourceType = "Group" ∨ resourceType = "group" then declareGroup env event iri
  else if resourceType = "Volume" ∨ resourceType = "volume" then declareVolume env event iri
  else if resourceType = "Ingress" ∨ resourceType = "ingress" then declareIngress env event iri
  else if resourceType = "Container" ∨ resourceType = "container" then declareContainer event iri
  else if resourceType = "FeatureFlag" ∨ resourceType = "feature-flag" then
    declareFeatureFlag event iri
  else if resourceType = "InferenceRule" ∨ resourceType = "inference-rule" then
    declareInferenceRule event iri
  else if resourceType = "NetworkPolicy" then declareNetworkPolicy event iri
  else if resourceType = "EventStore" ∨ resourceType = "event-store" then
    declareEventStore env event iri
  else if resourceType = "RdfStore" ∨ resourceType = "rdf-store" then declareRdfStore env event iri
  else if resourceType = "EventSubscription" then declareEventSubscription event iri
  else if resourceType = "Ontology" ∨ resourceType = "ontology" then declareOntology env event iri
  else []

/-- `project_resource_declared`. -/
def projectResourceDeclared (env : ProjectorEnv) (event : EventEnvelope) : Script :=
  let iri := event.iriOrSource "resource_iri"
  let resourceType := event.strD "resource_type" "Resource"
  [.ops (declareResource env event iri resourceType ++ declareByType env event iri resourceType)]

/-! ## The lifecycle after the declaration -/

/-- `project_resource_provisioning`. -/
def projectResourceProvisioning (env : ProjectorEnv) (event : EventEnvelope) : Script :=
  let iri := event.iriOrSource "resource_iri"
  [.ops (updateStatus env iri "provisioning" event.product ++
    optionalText event iri "provisioningMessage" "message")]

/-- `project_resource_ready`. -/
def projectResourceReady (env : ProjectorEnv) (event : EventEnvelope) : Script :=
  [.ops (updateStatus env (event.iriOrSource "resource_iri") "ready" event.product)]

/-- `project_resource_failed`. -/
def projectResourceFailed (env : ProjectorEnv) (event : EventEnvelope) : Script :=
  let iri := event.iriOrSource "resource_iri"
  let reason := event.strD "reason" "unknown"
  [.ops (updateStatus env iri "failed" event.product ++
    insertTriple iri (pc "failureReason") (simple reason) ++
    event.product.toList.flatMap fun product =>
      insertTripleInGraph iri (pc "failureReason") (simple reason) (env.iris.productGraph product))]

/-- `project_resource_deleted`. -/
def projectResourceDeleted (event : EventEnvelope) : Script :=
  [.ops (removeTriplesAboutAllGraphs (event.iriOrSource "resource_iri"))]

/-! ## Identities and tags -/

/-- `project_identity_created`. -/
def projectIdentityCreated (env : ProjectorEnv) (event : EventEnvelope) : Script :=
  let iri := event.iriOrSource "identity_iri"
  let identityType := event.strD "identity_type" "Identity"
  let name := event.strD "name" ""
  [.ops (insertTriple iri rdfType (picloudTerm "Identity") ++
    insertTriple iri (pc "identityType") (simple identityType) ++
    insertTriple iri (pc "name") (simple name) ++
    insertTriple iri (pc "status") (simple "active") ++
    (event.str "product").toList.flatMap fun product =>
      let graph := env.iris.productGraph product
      insertTripleInGraph iri rdfType (picloudTerm "Identity") graph ++
        insertTripleInGraph iri (pc "name") (simple name) graph)]

/-- The identifier of the blank node of a tag. -/
def tagBlankNode (iri key value : String) : String :=
  ((("tag-" ++ iri ++ "-" ++ key ++ "-" ++ value).replace "://" "-").replace "/" "-"
    |>.replace "." "-").replace ":" "-"

/-- The quads of a tag in one graph. -/
def tagQuads (iri key value : String) (graph : GraphName) : List Quad :=
  let bnode := tagBlankNode iri key value
  [⟨.named ⟨iri⟩, ⟨pc "tag"⟩, .blank bnode, graph⟩,
    ⟨.blank bnode, ⟨pc "tagKey"⟩, simple key, graph⟩,
    ⟨.blank bnode, ⟨pc "tagValue"⟩, simple value, graph⟩]

/-- `project_tag_added`. -/
def projectTagAdded (env : ProjectorEnv) (event : EventEnvelope) : Script :=
  let iri := event.iriOrSource "resource_iri"
  let key := event.strD "key" ""
  let value := event.strD "value" ""
  [.ops ([.blank "invalid bnode id: " (tagBlankNode iri key value),
      .named "invalid subject IRI: " iri,
      .named "invalid predicate IRI: " (pc "tag"),
      .named "invalid predicate IRI: " (pc "tagKey"),
      .named "invalid predicate IRI: " (pc "tagValue")] ++
    (tagQuads iri key value .default).map .put ++
    event.product.toList.flatMap fun product =>
      let graph := env.iris.productGraph product
      .named "invalid graph IRI: " graph :: (tagQuads iri key value (.named ⟨graph⟩)).map .put)]

/-- `project_tag_removed`. -/
def projectTagRemoved (event : EventEnvelope) : Script :=
  let iri := event.iriOrSource "resource_iri"
  let bnode := tagBlankNode iri (event.strD "key" "") (event.strD "value" "")
  [.ops [.blank "invalid bnode id: " bnode,
    .del { subject := some (.blank bnode) },
    .named "invalid subject IRI: " iri,
    .named "invalid predicate IRI: " (pc "tag"),
    .del ⟨some (.named ⟨iri⟩), some ⟨pc "tag"⟩, some (.blank bnode), none⟩]]

/-! ## Configuration, feature flags and groups -/

/-- `project_config_changed`. -/
def projectConfigChanged (env : ProjectorEnv) (event : EventEnvelope) : Script :=
  let iri := event.iriOrSource "config_iri"
  let key := event.strD "key" ""
  let value := event.strD "value" ""
  let configType := event.strD "config_type" "string"
  if event.strD "action" "set" = "deleted" then [.ops (removeTriplesAboutAllGraphs iri)]
  else
    [.ops (removeTriplesAboutAllGraphs iri ++
      insertTriple iri rdfType (picloudTerm "ConfigEntry") ++
      insertTriple iri (pc "configKey") (simple key) ++
      insertTriple iri (pc "configValue") (simple value) ++
      insertTriple iri (pc "configType") (simple configType) ++
      event.product.toList.flatMap fun product =>
        let graph := env.iris.productGraph product
        insertTripleInGraph iri rdfType (picloudTerm "ConfigEntry") graph ++
          insertTripleInGraph iri (pc "configKey") (simple key) graph ++
          insertTripleInGraph iri (pc "configValue") (simple value) graph ++
          insertTripleInGraph iri (pc "configType") (simple configType) graph)]

/-- `project_feature_flag_changed`. -/
def projectFeatureFlagChanged (env : ProjectorEnv) (event : EventEnvelope) : Script :=
  let iri := event.iriOrSource "flag_iri"
  let flagName := event.strD "flag_name" ""
  let enabled := (event.payload.index "enabled").asBool.getD false
  let versionExpr := ((event.str "version_expr").or (event.str "version")).getD ""
  let description := event.strD "description" ""
  if event.strD "action" "set" = "deleted" then [.ops (removeTriplesAboutAllGraphs iri)]
  else
    [.ops (removeTriplesAboutAllGraphs iri ++
      insertTriple iri rdfType (picloudTerm "FeatureFlag") ++
      insertTriple iri (pc "flagName") (simple flagName) ++
      insertTriple iri (pc "flagEnabled") (simple (boolText enabled)) ++
      insertTriple iri (pc "flagVersion") (simple versionExpr) ++
      (if description = "" then []
        else insertTriple iri (pc "flagDescription") (simple description)) ++
      event.product.toList.flatMap fun product =>
        let graph := env.iris.productGraph product
        insertTripleInGraph iri rdfType (picloudTerm "FeatureFlag") graph ++
          insertTripleInGraph iri (pc "flagName") (simple flagName) graph ++
          insertTripleInGraph iri (pc "flagEnabled") (simple (boolText enabled)) graph ++
          insertTripleInGraph iri (pc "flagVersion") (simple versionExpr) graph ++
          if description = "" then []
          else insertTripleInGraph iri (pc "flagDescription") (simple description) graph)]

/-- `project_group_membership_changed`. An unknown action is passed over. -/
def projectGroupMembershipChanged (event : EventEnvelope) : Script :=
  let groupIri := event.iriOrSource "group_iri"
  let memberIri := event.strD "member_iri" ""
  let action := event.strD "action" "added"
  if action = "added" then
    [.ops (insertTriple groupIri rdfType (picloudTerm "Group") ++
      insertNode groupIri (pc "hasMember") "invalid member IRI: " memberIri)]
  else if action = "removed" then
    [.ops [.named "invalid group IRI: " groupIri, .named "invalid predicate: " (pc "hasMember"),
      .named "invalid member IRI: " memberIri,
      .del (quad groupIri (pc "hasMember") (node memberIri) .default).pattern]]
  else []

/-! ## Alerts -/

/-- The IRI of an alert: one for each type and resource. -/
def alertIri (env : ProjectorEnv) (resourceIri alertType : String) : String :=
  resourceIri ++ "/alerts/" ++ env.toLowercase alertType

/-- `if let Ok(node) = NamedNode::new(object) { insert_triple(..)? }`. -/
def tryInsertNode (env : ProjectorEnv) (subject predicate object : String) : List Op :=
  match env.checks.iri object with
  | none => insertTriple subject predicate (node object)
  | some _ => []

/-- `project_alert_fired`. -/
def projectAlertFired (env : ProjectorEnv) (event : EventEnvelope) : Script :=
  let alertType := event.strD "alert_type" ""
  let severity := event.strD "severity" "warning"
  let resourceIri := event.iriOrSource "resource_iri"
  let ruleIri := event.strD "rule_iri" ""
  let message := event.strD "message" ""
  let iri := alertIri env resourceIri alertType
  [.ops (insertTriple iri rdfType (picloudTerm "Alert") ++
    insertTriple iri (pc "alertType") (simple alertType) ++
    insertTriple iri (pc "severity") (simple severity) ++
    insertTriple iri (pc "message") (simple message) ++
    tryInsertNode env iri (pc "alertResource") resourceIri ++
    if ruleIri = "" then [] else tryInsertNode env iri (pc "alertRule") ruleIri)]

/-- `project_alert_resolved`. -/
def projectAlertResolved (env : ProjectorEnv) (event : EventEnvelope) : Script :=
  [.ops (removeTriplesAboutAllGraphs
    (alertIri env (event.iriOrSource "resource_iri") (event.strD "alert_type" "")))]

end Picloud
