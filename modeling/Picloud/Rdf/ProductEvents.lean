import Picloud.Rdf.Inference
import Picloud.Rdf.ResourceEvents

/-!
# Handlers of product events

Reference: `picloud-rdf/src/implementation.rs`, the handlers of products, ontologies, product
events, capabilities, data domains and data products.
-/

namespace Picloud

open Lib

/-! ## Deployment -/

/-- The source and the minimum version of one `data_products` dependency: a text, or an object. -/
def dependencySource (dep : Json) : Option (String × Option String) :=
  match dep.asStr with
  | some s => some (s, none)
  | none => (dep.get? "source").bind fun source => source.asStr.map fun s =>
    (s, ((dep.get? "min_version").bind Json.asStr).or ((dep.get? "minVersion").bind Json.asStr))

/-- The triples of one `data_products` dependency. A source without a slash is passed over. -/
def dependencyTriples (env : ProjectorEnv) (productIri : String) (dep : Json) : List Op :=
  (dependencySource dep).toList.flatMap fun (source, minVersion) =>
    (splitOnce source).toList.flatMap fun (owningProduct, dpName) =>
      let owner := String.ofList ((env.iris.product owningProduct).toList.rdropWhile (· = '/'))
      let dpIri := owner ++ "/data-products/" ++ dpName
      let depIri := productIri ++ "/data-product-deps/" ++ dpName
      tryInsertNode env productIri (pc "consumesDataProduct") dpIri ++
        minVersion.toList.flatMap fun version =>
          insertTriple depIri rdfType (picloudTerm "DataProductDependency") ++
            tryInsertNode env depIri (pc "dataProduct") dpIri ++
            insertTriple depIri (pc "minVersion") (simple version) ++
            tryInsertNode env productIri (pc "dataProductDependency") depIri

/-- `project_product_deployed`. -/
def projectProductDeployed (env : ProjectorEnv) (event : EventEnvelope) : Script :=
  let productIri := event.iriOrSource "product_iri"
  let productName := event.strD "product_name" ""
  let version := event.strD "version" "0.0.0"
  let policyIri := productIri ++ "/network-policy"
  [.ops (insertTriple productIri rdfType (picloudTerm "Resource") ++
    insertTriple productIri (pc "resourceType") (simple "Product") ++
    insertTriple productIri (pc "name") (simple productName) ++
    insertTriple productIri (pc "version") (simple version) ++
    insertTriple productIri (pc "status") (simple "deployed") ++
    insertNode productIri (pc "sparqlEndpoint") "" (env.iris.productGraph productName) ++
    insertNode productIri (pc "eventStream") "" (env.iris.productEvents productName) ++
    insertNode productIri (pc "ontologyIri") ""
      (env.iris.productOntologyVersioned productName version) ++
    insertTriple policyIri rdfType (picloudTerm "NetworkPolicy") ++
    insertTriple policyIri (pc "isolationType") (simple "product") ++
    insertNode productIri (pc "networkPolicy") "" policyIri ++
    (((event.payload.get? "data_products").bind Json.asArray).getD []).flatMap
      (dependencyTriples env productIri))]

/-- `project_ontology_loaded`: the content goes into the graph of the product and into the default
graph. -/
def projectOntologyLoaded (env : ProjectorEnv) (event : EventEnvelope) : Script :=
  let ontologyIri := event.iriOrSource "ontology_iri"
  let product := event.strD "product" ""
  let version := event.strD "version" "0.0.0"
  let content := event.strD "content" ""
  let format := event.strD "format" "turtle"
  if content = "" then []
  else
    loadOntology env content (some (env.iris.productGraph product)) ++
      loadOntology env content none ++
      [.ops (insertNode ontologyIri (pc "boundToVersion") ""
          (env.iris.productOntologyVersioned product version) ++
        insertTriple ontologyIri (pc "loadedFormat") (simple format) ++
        updateStatus env ontologyIri "ready" (some product))]

/-! ## Deletion -/

/-- The removals for the children that the property `product` names: everything about the subjects
that the query finds. -/
def removeChildrenByProperty (env : ProjectorEnv) (productName : String) (s : Store) : List Op :=
  (env.scan (s.quadsForPattern
    ⟨none, some ⟨pc "product"⟩, some (simple productName), some .default⟩)).flatMap fun q =>
      tryRemoveAbout env q.subject.text

/-- The removals for the subjects whose IRI has the path of the product in it; `STR` of a blank node
is an error, so only IRIs pass the filter. -/
def removeChildrenByPath (env : ProjectorEnv) (productName : String) (s : Store) : List Op :=
  (env.scan (s.quadsForPattern { graph := some .default })).flatMap fun q =>
    match q.subject with
    | .named n =>
      if containsText n.value ("/products/" ++ productName ++ "/") then tryRemoveAbout env n.value
      else []
    | _ => []

/-- `project_product_deleted`. The two queries embed the name in their text; it has passed a check
as part of an IRI by then, so it holds no character that would end the literal. -/
def projectProductDeleted (env : ProjectorEnv) (event : EventEnvelope) : Script :=
  let productIri := event.iriOrSource "product_iri"
  let productName := event.product.or ((event.str "product_iri").map lastSegment)
  [.ops (removeTriplesAboutAllGraphs productIri ++
      event.product.toList.flatMap fun name =>
        let graph := env.iris.productGraph name
        [.named "invalid graph IRI: " graph, .del { graph := some (.named ⟨graph⟩) }]),
    .read fun s => productName.toList.flatMap fun name => removeChildrenByProperty env name s,
    .read fun s => productName.toList.flatMap fun name => removeChildrenByPath env name s]

/-! ## Product events -/

/-- The text of a property of the payload's `data`. -/
def dataText (env : ProjectorEnv) : Json → String
  | .string s => s
  | .bool b => boolText b
  | value => env.jsonText value

/-- The fields of the payload's `data`, if it is an object. -/
def dataFields (event : EventEnvelope) : List (String × Json) :=
  ((event.payload.get? "data").bind Json.asObject).getD []

/-- `project_product_event_appended`. -/
def projectProductEventAppended (env : ProjectorEnv) (event : EventEnvelope) : Script :=
  match event.product with
  | none => [.ops [.fail "ProductEventAppended missing product scope"]]
  | some productName =>
    let graph := env.iris.productGraph productName
    let eventIri := event.iriOrSource "event_iri"
    let aggregateType := event.strD "aggregate_type" "Unknown"
    let aggregateId := event.strD "aggregate_id" "unknown"
    let productEventType := event.strD "product_event_type" "Event"
    [.ops (insertTriple eventIri rdfType (picloudTerm "ProductEvent") ++
      insertTriple eventIri (pc "aggregateType") (simple aggregateType) ++
      insertTriple eventIri (pc "aggregateId") (simple aggregateId) ++
      insertTriple eventIri (pc "productEventType") (simple productEventType) ++
      insertTriple eventIri (pc "product") (simple productName) ++
      (dataFields event).flatMap (fun f =>
        insertTriple eventIri (pc f.1) (simple (dataText env f.2))) ++
      insertTripleInGraph eventIri rdfType (picloudTerm "ProductEvent") graph ++
      insertTripleInGraph eventIri (pc "aggregateType") (simple aggregateType) graph ++
      insertTripleInGraph eventIri (pc "aggregateId") (simple aggregateId) graph ++
      insertTripleInGraph eventIri (pc "productEventType") (simple productEventType) graph ++
      (dataFields event).flatMap fun f =>
        insertTripleInGraph eventIri (pc f.1) (simple (dataText env f.2)) graph)]

/-! ## Upgrades -/

/-- Replace the values of a property by one text. -/
def replaceText (iri predicate value : String) : List Op :=
  removeTriple iri (pc predicate) ++ insertTriple iri (pc predicate) (simple value)

/-- `project_product_upgrade_started`. -/
def projectProductUpgradeStarted (event : EventEnvelope) : Script :=
  let iri := event.iriOrSource "product_iri"
  [.ops (insertTriple iri (pc "upgradeState") (simple "Provisioning") ++
    insertTriple iri (pc "upgradeFromVersion") (simple (event.strD "from_version" "unknown")) ++
    insertTriple iri (pc "upgradeToVersion") (simple (event.strD "to_version" "unknown")) ++
    replaceText iri "status" "upgrading")]

/-- `project_product_upgrade_completed`. -/
def projectProductUpgradeCompleted (event : EventEnvelope) : Script :=
  let iri := event.iriOrSource "product_iri"
  let version := ((event.str "to_version").or (event.str "version")).getD "unknown"
  [.ops (replaceText iri "version" version ++
    removeTriple iri (pc "upgradeState") ++
    removeTriple iri (pc "upgradeFromVersion") ++
    removeTriple iri (pc "upgradeToVersion") ++
    replaceText iri "status" "deployed")]

/-- `project_product_upgrade_aborted`. -/
def projectProductUpgradeAborted (event : EventEnvelope) : Script :=
  let iri := event.iriOrSource "product_iri"
  [.ops (replaceText iri "upgradeState" "Failed" ++
    insertTriple iri (pc "upgradeFailureReason") (simple (event.strD "reason" "unknown")) ++
    replaceText iri "status" "upgrade_failed")]

/-! ## Capabilities -/

/-- `project_capability_declared`. -/
def projectCapabilityDeclared (event : EventEnvelope) : Script :=
  let iri := event.iriOrSource "capability_iri"
  [.ops (insertTriple iri rdfType (picloudTerm "Capability") ++
    insertTriple iri (pc "name") (simple (event.strD "name" "")) ++
    insertTriple iri (pc "version") (simple (event.strD "version" "")) ++
    insertTriple iri (pc "inputEvent") (simple (event.strD "input_event" "")) ++
    insertTriple iri (pc "outputEvent") (simple (event.strD "output_event" "")) ++
    insertTriple iri (pc "status") (simple "declared"))]

/-- `project_capability_ready`. -/
def projectCapabilityReady (env : ProjectorEnv) (event : EventEnvelope) : Script :=
  [.ops (updateStatus env (event.iriOrSource "capability_iri") "ready" none)]

/-- `project_capability_implementor_added`. -/
def projectCapabilityImplementorAdded (event : EventEnvelope) : Script :=
  [.ops (insertNode (event.iriOrSource "capability_iri") (pc "implementedBy")
    "invalid product IRI: " (event.strD "product_iri" ""))]

/-- `project_capability_implementor_removed`: texts that are no IRIs are passed over. -/
def projectCapabilityImplementorRemoved (env : ProjectorEnv) (event : EventEnvelope) : Script :=
  let capabilityIri := event.iriOrSource "capability_iri"
  let productIri := event.strD "product_iri" ""
  if env.checks.iri capabilityIri = none ∧ env.checks.iri (pc "implementedBy") = none ∧
      env.checks.iri productIri = none then
    [.ops [.del (quad capabilityIri (pc "implementedBy") (node productIri) .default).pattern]]
  else []

/-- `project_capability_consumer_added`. -/
def projectCapabilityConsumerAdded (event : EventEnvelope) : Script :=
  [.ops (insertNode (event.iriOrSource "capability_iri") (pc "consumedBy")
    "invalid product IRI: " (event.strD "product_iri" ""))]

/-- `project_capability_deleted`. -/
def projectCapabilityDeleted (event : EventEnvelope) : Script :=
  [.ops (removeTriplesAboutAllGraphs (event.iriOrSource "capability_iri"))]

/-! ## Data domains and data products -/

/-- `project_data_domain_declared`. -/
def projectDataDomainDeclared (event : EventEnvelope) : Script :=
  let iri := event.iriOrSource "domain_iri"
  [.ops (insertTriple iri rdfType (picloudTerm "DataDomain") ++
    insertTriple iri (pc "name") (simple (event.strD "name" "")) ++
    insertTriple iri (pc "steward") (simple (event.strD "steward" "")) ++
    insertTriple iri (pc "sensitivity") (simple (event.strD "sensitivity" "internal")) ++
    insertTriple iri (pc "status") (simple "declared") ++
    nonEmptyText event iri "description" "description")]

/-- `project_data_domain_updated`: the description is replaced only when one is given. -/
def projectDataDomainUpdated (event : EventEnvelope) : Script :=
  let iri := event.iriOrSource "domain_iri"
  [.ops (replaceText iri "steward" (event.strD "steward" "") ++
    replaceText iri "sensitivity" (event.strD "sensitivity" "internal") ++
    (event.str "description").toList.flatMap fun description =>
      removeTriple iri (pc "description") ++
        if description = "" then [] else insertTriple iri (pc "description") (simple description))]

/-- `project_data_domain_deleted`. -/
def projectDataDomainDeleted (event : EventEnvelope) : Script :=
  [.ops (removeTriplesAboutAllGraphs (event.iriOrSource "domain_iri"))]

/-- The IRI of a data domain. -/
def dataDomainIri (env : ProjectorEnv) (domain : String) : String :=
  env.iris.base ++ "/data-domains/" ++ domain

/-- `project_data_product_declared`. -/
def projectDataProductDeclared (env : ProjectorEnv) (event : EventEnvelope) : Script :=
  let iri := event.iriOrSource "data_product_iri"
  let product := event.strD "product" ""
  let domain := event.strD "domain" ""
  [.ops (insertTriple iri rdfType (picloudTerm "DataProduct") ++
    insertTriple iri (pc "name") (simple (event.strD "name" "")) ++
    insertTriple iri (pc "product") (simple product) ++
    insertTriple iri (pc "domain") (simple domain) ++
    insertTriple iri (pc "version") (simple (event.strD "version" "")) ++
    insertTriple iri (pc "status") (simple "declared") ++
    tryInsertNode env iri (pc "belongsToDomain") (dataDomainIri env domain) ++
    tryInsertNode env iri (pc "producedBy") (env.iris.product product) ++
    optionalText event iri "maxAge" "max_age")]

/-- `project_data_product_updated`. -/
def projectDataProductUpdated (env : ProjectorEnv) (event : EventEnvelope) : Script :=
  let iri := event.iriOrSource "data_product_iri"
  let domain := event.strD "domain" ""
  [.ops (replaceText iri "version" (event.strD "version" "") ++
    replaceText iri "domain" domain ++
    removeTriple iri (pc "belongsToDomain") ++
    tryInsertNode env iri (pc "belongsToDomain") (dataDomainIri env domain) ++
    removeTriple iri (pc "maxAge") ++
    optionalText event iri "maxAge" "max_age")]

/-- `project_data_product_refreshed`. -/
def projectDataProductRefreshed (env : ProjectorEnv) (event : EventEnvelope) : Script :=
  let iri := event.iriOrSource "data_product_iri"
  let tripleCount := (event.payload.index "triple_count").asU64.getD 0
  let ts := event.strD "refreshed_at" (env.rfc3339 event.timestamp)
  [.ops (updateStatus env iri "ready" none ++
    removeTriple iri (pc "lastRefreshed") ++
    removeTriple iri (pc "tripleCount") ++
    insertTriple iri (pc "lastRefreshed") (typed ts xsdDateTime) ++
    insertTriple iri (pc "tripleCount") (typed (toString tripleCount) xsdUnsignedLong))]

/-- `project_data_product_deleted`. -/
def projectDataProductDeleted (event : EventEnvelope) : Script :=
  [.ops (removeTriplesAboutAllGraphs (event.iriOrSource "data_product_iri"))]

/-- `project_data_product_slo_breached`. -/
def projectDataProductSloBreached (event : EventEnvelope) : Script :=
  let iri := event.iriOrSource "data_product_iri"
  [.ops (replaceText iri "freshnessStatus" "breached" ++
    (event.str "max_age").toList.flatMap fun maxAge => replaceText iri "maxAge" maxAge)]

/-- `project_data_product_slo_restored`. -/
def projectDataProductSloRestored (event : EventEnvelope) : Script :=
  [.ops (replaceText (event.iriOrSource "data_product_iri") "freshnessStatus" "fresh")]

end Picloud
