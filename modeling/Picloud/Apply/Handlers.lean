import Picloud.Domain.Specs
import Picloud.Lib.Program
import Picloud.Rdf.Projector

/-!
# Applying and deleting

Reference: `version_at_least`, `handle_apply` and `handle_delete` of
`picloud-http/src/implementation.rs`.

A handler is a program: each read of the event log, each query of the graph and each append is a
section of its own. The event log is `InMemoryEventLog`; an append may also be refused by whatever
stands behind the log, and then changes nothing. The SPARQL engine is a parameter: it answers the
text of a query with rows, or not at all.
-/

namespace Picloud

open Lib

/-! ## State and configuration -/

/-- What the handlers share: the log, the graph, and how many events the projection loop has
projected into the graph. -/
structure ApiState where
  log : InMemoryEventLog
  graph : Store
  projected : ℕ
deriving DecidableEq

/-- The parts of `AppState` that do not change, and the libraries. -/
structure ApiConfig where
  /-- `cluster_domain`. -/
  iris : IriBuilder
  /-- `event_log` is there. -/
  hasEventLog : Bool
  /-- `projector` is there. -/
  hasProjector : Bool
  /-- `cluster` is there; its `members()` answers with so many, or fails. -/
  members : Option (Option UInt64)
  formats : Formats
  /-- `projector.query(text)`; an error is `none`. -/
  sparql : Store → String → Option (List Json)

/-- What the outside gives to one append: the identifier and the time of the envelope, and the error
with which the log refuses it. -/
structure Slot where
  id : Uuid
  now : ℤ
  refused : Option PiCloudError
deriving DecidableEq

/-- A request to apply a file. The slots are numbered by the position of the declaration in the order
of provisioning, and by `0` for its event and from `1` on for its tags. -/
structure ApplyRequest where
  file : ResourceFile
  /-- The header `traceparent`, if it is a text. -/
  traceparent : Option String
  /-- `Uuid::new_v4()`. -/
  correlationId : Uuid
  slot : ℕ → ℕ → Slot

/-- One entry of the results: no error means `declared`. -/
structure ApplyResult where
  name : String
  resourceType : String
  error : Option PiCloudError
deriving DecidableEq

/-- The answers of `handle_apply`. -/
inductive ApplyAnswer where
  /-- 503. -/
  | serviceUnavailable (error : String)
  /-- 400. -/
  | badRequest (error : String)
  /-- 409. -/
  | conflict (error : String)
  /-- 200. -/
  | ok (correlationId : Uuid) (results : List ApplyResult)
deriving DecidableEq

/-- The sections of the handlers. -/
inductive ApiSection where
  /-- The log is read for the overwrite protection of a product. -/
  | scan (product : String)
  /-- The graph is asked for the product. -/
  | lookup (product : String)
  /-- The log is read for a dependency of a product. -/
  | scanDependency (product : String)
  /-- The graph is asked for a dependency of a product. -/
  | lookupDependency (product : String)
  | append (event : EventEnvelope)
deriving DecidableEq

/-- A handler. -/
abbrev Api (R : Type) := Program ApiSection ApiState R

/-! ## Appending -/

/-- What an append leaves of the state. -/
def ApiState.appended (s : ApiState) (event : EventEnvelope) (refused : Option PiCloudError) :
    ApiState :=
  match refused with
  | none => { s with log := s.log.append event }
  | some _ => s

/-- `event_log.append(event).await`. -/
def appendEvent (event : EventEnvelope) (refused : Option PiCloudError) :
    Api (Option PiCloudError) :=
  .write (.append event) (fun s => s.appended event refused) fun _ => refused

/-! ## Overwrite protection -/

/-- The scan of the log for the last lifecycle event of a product. -/
def scanProduct (name : String) (events : List EventEnvelope) : Bool :=
  events.foldl (fun productExists evt =>
    if evt.eventType = "ProductDeployed" then
      if evt.str "product_name" = some name then true else productExists
    else if evt.eventType = "ProductDeleted" then
      if evt.str "product_name" = some name then false else productExists
    else productExists) false

/-- The query for a product in the graph. -/
def productQuery (iri : String) : String :=
  "SELECT ?s WHERE \x7b <" ++ iri ++ "> a <https://picloud.local/ontology#Product> \x7d LIMIT 1"

/-- The graph answers the query with a row. -/
def graphHasProduct (cfg : ApiConfig) (graph : Store) (name : String) : Bool :=
  match cfg.sparql graph (productQuery (cfg.iris.product name)) with
  | some bindings => !bindings.isEmpty
  | none => false

/-- `product_exists`. -/
def productExists (cfg : ApiConfig) (name : String) : Api Bool := do
  let inLog ← .read (.scan name) fun s => scanProduct name (s.log.eventsSince 0)
  if !inLog && cfg.hasProjector then
    .read (.lookup name) fun s => graphHasProduct cfg s.graph name
  else
    pure inLog

/-- The answer for a product that exists. -/
def conflictOf (name : String) : ApplyAnswer :=
  .conflict ("product '" ++ name ++
    "' already exists — use picloud resource apply --overwrite or delete first")

/-! ## Dependencies on data products -/

/-- The numbers between the dots; what is no `u64` counts as zero. -/
def versionParts (s : String) : List ℕ :=
  (s.toList.splitOn '.').map fun part => (parseU64 (String.ofList part)).getD 0

/-- Compare two versions number by number; a version that ends has zeros. -/
def partsAtLeast : List ℕ → List ℕ → Bool
  | [], [] => true
  | a :: as, [] => if a > 0 then true else partsAtLeast as []
  | [], r :: rs => if 0 < r then false else partsAtLeast [] rs
  | a :: as, r :: rs => if a > r then true else if a < r then false else partsAtLeast as rs

/-- `version_at_least`. -/
def versionAtLeast (available required : String) : Bool :=
  partsAtLeast (versionParts available) (versionParts required)

/-- What is known of a data product. -/
structure DataProductFound where
  dpExists : Bool
  latestVersion : Option String
deriving DecidableEq

/-- The IRI of a data product, from the parts of a dependency. -/
def dataProductIri (iris : IriBuilder) (owningProduct dpName : String) : String :=
  String.ofList ((iris.product owningProduct).toList.rdropWhile (· = '/')) ++ "/data-products/" ++
    dpName

/-- The scan of the log for a data product. The last component says that it was deleted. -/
def scanDataProduct (dpIri owningProduct dpName : String) (events : List EventEnvelope) :
    DataProductFound :=
  let (found, declaredDeleted) := events.foldl (fun (found, declaredDeleted) evt =>
    if evt.eventType = "DataProductDeclared" then
      if evt.str "data_product_iri" = some dpIri ∨
          evt.str "name" = some dpName ∧ evt.str "product" = some owningProduct then
        (⟨true, (evt.str "version").or found.latestVersion⟩, false)
      else (found, declaredDeleted)
    else if evt.eventType = "DataProductDeleted" then
      (found, declaredDeleted || evt.str "data_product_iri" = some dpIri)
    else (found, declaredDeleted)) ((⟨false, none⟩ : DataProductFound), false)
  if declaredDeleted then { found with dpExists := false } else found

/-- The query whether the graph has a data product. -/
def dataProductAsk (dpIri : String) : String :=
  "ASK \x7b <" ++ dpIri ++ "> a <https://picloud.local/ontology#DataProduct> \x7d"

/-- The query for the version of a data product. -/
def dataProductVersionQuery (dpIri : String) : String :=
  "SELECT ?v WHERE \x7b <" ++ dpIri ++ "> <https://picloud.local/ontology#version> ?v \x7d LIMIT 1"

/-- The answer of the graph to the question for a data product. -/
def askedDataProduct (cfg : ApiConfig) (graph : Store) (dpIri : String) : Bool :=
  (((cfg.sparql graph (dataProductAsk dpIri)).bind List.head?).bind fun row =>
    (row.get? "result").bind Json.asBool).getD false

/-- The version of a data product in the graph; a query that fails leaves the version known so
far. -/
def askedVersion (cfg : ApiConfig) (graph : Store) (dpIri : String) (known : Option String) :
    Option String :=
  match cfg.sparql graph (dataProductVersionQuery dpIri) with
  | some rows => rows.head?.bind fun row => ((row.get? "v").bind (·.get? "value")).bind Json.asStr
  | none => known

/-- The judgement on a dependency, from what is known of the data product. -/
def judgeDependency (p : ProductDecl) (dep : DataProductDepDecl) (found : DataProductFound) :
    Option ApplyAnswer :=
  if !found.dpExists then
    some (.badRequest ("DataProductNotFound: '" ++ dep.source ++ "' (required by product '" ++
      p.name ++ "' — minVersion '" ++ dep.minVersion ++ "')"))
  else
    match found.latestVersion with
    | some available =>
      if versionAtLeast available dep.minVersion then none
      else some (.badRequest ("DataProductNotFound: '" ++ dep.source ++ "' at minVersion '" ++
        dep.minVersion ++ "' — available version is '" ++ available ++ "'"))
    | none => none

/-- A data product that the log does not have is looked up in the graph, in up to two queries. -/
def lookupDataProduct (cfg : ApiConfig) (p : ProductDecl) (dpIri : String)
    (found : DataProductFound) : Api DataProductFound := do
  if found.dpExists || !cfg.hasProjector then
    pure found
  else
    let hit ← .read (.lookupDependency p.name) fun s => askedDataProduct cfg s.graph dpIri
    if hit then
      .read (.lookupDependency p.name) fun s =>
        ⟨true, askedVersion cfg s.graph dpIri found.latestVersion⟩
    else
      pure found

/-- The answer for a dependency whose source has no slash. -/
def invalidSource (source : String) : ApplyAnswer :=
  .badRequest ("DataProductNotFound: invalid dataProducts source '" ++ source ++
    "' (expected 'owning-product/data-product-name')")

/-- The check of one dependency. -/
def checkDependency (cfg : ApiConfig) (p : ProductDecl) (dep : DataProductDepDecl) :
    Api (Option ApplyAnswer) :=
  match splitOnce dep.source with
  | none => pure (some (invalidSource dep.source))
  | some (owningProduct, dpName) => do
    let dpIri := dataProductIri cfg.iris owningProduct dpName
    let found ← .read (.scanDependency p.name) fun s =>
      scanDataProduct dpIri owningProduct dpName (s.log.eventsSince 0)
    let found ← lookupDataProduct cfg p dpIri found
    pure (judgeDependency p dep found)

/-- The dependencies of a product, up to the first that is not met. -/
def checkDependencies (cfg : ApiConfig) (p : ProductDecl) :
    List DataProductDepDecl → Api (Option ApplyAnswer)
  | [] => pure none
  | dep :: deps => do
    match ← checkDependency cfg p dep with
    | some answer => pure (some answer)
    | none => checkDependencies cfg p deps

/-- All checks of a product. -/
def checkProduct (cfg : ApiConfig) (p : ProductDecl) : Api (Option ApplyAnswer) := do
  if ← productExists cfg p.name then
    pure (some (conflictOf p.name))
  else
    checkDependencies cfg p p.dataProducts

/-- The checks of a declaration, before its event is built. -/
def checkDeclaration (cfg : ApiConfig) : ResourceDeclaration → Api (Option ApplyAnswer)
  | .product p => checkProduct cfg p
  | _ => pure none

/-! ## Events of declarations -/

/-- An optional text. -/
def optText : Option String → Json
  | some s => .string s
  | none => .null

/-- An optional number. -/
def optWord32 : Option UInt32 → Json
  | some n => .number (.posInt n.toUInt64)
  | none => .null

/-- A list of texts. -/
def textArray (items : List String) : Json := .array (items.map .string)

/-- A map of texts. -/
def textMap (entries : List (String × String)) : Json :=
  .object (entries.map fun e => (e.1, .string e.2))

/-- `serde_json::to_value(env_value)`: the variants are untagged. -/
def EnvValue.toJson : EnvValue → Json
  | .literal value => .string value
  | .secret name => .object [("secret", .string name)]

/-- The serialisation of `Protocol`. -/
def Protocol.toJson : Protocol → Json
  | .tcp => .string "tcp"
  | .udp => .string "udp"

/-- An entry of `ports`. -/
def PortMapping.toJson (p : PortMapping) : Json :=
  .object [("port", .number (.posInt p.port.toUInt64)), ("protocol", p.protocol.toJson)]

/-- An entry of `mounts`. -/
def VolumeMount.toJson (m : VolumeMount) : Json :=
  .object [("volume", .string m.volume), ("path", .string m.path), ("read_only", .bool m.readOnly)]

/-- What a declaration is recorded as. -/
structure Declared where
  iri : String
  eventType : String
  product : Option String
  payload : Json
deriving DecidableEq

/-- The start of the payload of a `ResourceDeclared`. -/
def resourceFields (iri resourceType : String) (fields : List (String × Json)) : Json :=
  .object (("resource_iri", .string iri) :: ("resource_type", .string resourceType) :: fields)

/-- A `ResourceDeclared` of a product's resource. -/
def resourceDeclared (iri resourceType product name : String) (fields : List (String × Json)) :
    Declared where
  iri := iri
  eventType := "ResourceDeclared"
  product := some product
  payload := resourceFields iri resourceType
    (("product", .string product) :: ("name", .string name) :: fields)

/-- `cluster.members()`, or one. -/
def ApiConfig.nodeCount (cfg : ApiConfig) : UInt64 := (cfg.members.bind id).getD 1

/-- The event of a declaration: its source, type, product and payload. Scopes and permissions between
products have none. -/
def declared (cfg : ApiConfig) : ResourceDeclaration → Option Declared
  | .product p =>
    let iri := cfg.iris.product p.name
    some ⟨iri, "ProductDeployed", none, .object
      [("product_iri", .string iri), ("product_name", .string p.name),
        ("version", .string p.version), ("description", optText p.description),
        ("data_products", .array (p.dataProducts.map fun d =>
          .object [("source", .string d.source), ("min_version", .string d.minVersion)]))]⟩
  | .volume v =>
    let intent := v.storageIntent
    some (resourceDeclared (cfg.iris.resource v.product "volumes" v.name) "Volume" v.product v.name
      [("size_gb", .number (.posInt v.sizeGb)), ("durability", .string intent.durability.debug),
        ("performance", .string intent.performance.debug),
        ("node_count", .number (.posInt cfg.nodeCount)),
        ("replication_factor", .number (.posInt cfg.nodeCount))])
  | .container c =>
    let spec := c.toSpec cfg.formats
    some (resourceDeclared (cfg.iris.resource c.product "containers" c.name) "Container" c.product
      c.name
      [("image", .string spec.image), ("identity", .string spec.identity),
        ("ports", .array (spec.ports.map PortMapping.toJson)),
        ("mounts", .array (spec.mounts.map VolumeMount.toJson)),
        ("env", .object (spec.env.map fun e => (e.1, e.2.toJson))),
        ("cpu_millicores", optWord32 spec.resources.cpuMillicores),
        ("memory_mb", optWord32 spec.resources.memoryMb)])
  | .binary b =>
    some (resourceDeclared (cfg.iris.resource b.product "binaries" b.name) "Binary" b.product b.name
      [("executable", .string b.executable)])
  | .eventSubscription e =>
    some (resourceDeclared (cfg.iris.resource e.product "event-subscriptions" e.name)
      "EventSubscription" e.product e.name
      [("source", .string e.source), ("event", .string e.event), ("handler", .string e.handler)])
  | .ingress i =>
    some (resourceDeclared (cfg.iris.resource i.product "ingresses" i.name) "Ingress" i.product
      i.name
      [("hostname", optText i.host), ("host", optText i.host), ("target", .string i.target),
        ("port", .number (.posInt i.port.toUInt64)), ("path", .string i.path),
        ("tls", .bool i.tls)])
  | .secret s =>
    some (resourceDeclared (cfg.iris.resource s.product "secrets" s.name) "Secret" s.product s.name
      [])
  | .role r =>
    let product := r.product.getD ""
    let iri := if product = "" then cfg.iris.resource "platform" "roles" r.name
      else cfg.iris.resource product "roles" r.name
    some ⟨iri, "ResourceDeclared", r.product, resourceFields iri "Role"
      [("product", optText r.product), ("name", .string r.name),
        ("permissions", textArray r.permissions)]⟩
  | .config c =>
    some (resourceDeclared (cfg.iris.productConfig c.product) "ConfigStore" c.product c.name
      [("entries", .array (c.entries.map fun e =>
        .object [("key", .string e.key), ("value", .string e.value), ("type", .string e.configType),
          ("tags", textMap e.tags)]))])
  | .featureFlag f =>
    some (resourceDeclared (cfg.iris.featureFlag f.product f.name) "FeatureFlag" f.product f.name
      [("description", optText f.description), ("enabled", .bool f.enabled),
        ("version", .string f.version)])
  | .group g =>
    let iri := cfg.iris.group g.name
    some ⟨iri, "ResourceDeclared", none, resourceFields iri "Group"
      [("name", .string g.name), ("description", optText g.description),
        ("roles", textArray g.roles)]⟩
  | .inferenceRule r =>
    let iri := cfg.iris.inferenceRule r.name
    some ⟨iri, "ResourceDeclared", none, resourceFields iri "InferenceRule"
      [("name", .string r.name), ("description", optText r.description),
        ("scope", .string r.scope), ("trigger", .string r.trigger),
        ("trigger_events", textArray r.triggerEvents), ("reconciliation", .bool r.reconciliation),
        ("construct_query", .string r.construct)]⟩
  | .scope _ | .m2mPermission _ => none
  | .capability c =>
    let iri := cfg.iris.clusterResource "capabilities" c.name
    some ⟨iri, "CapabilityDeclared", none, .object
      [("capability_iri", .string iri), ("name", .string c.name), ("version", .string c.version),
        ("input_event", .string c.inputEvent), ("output_event", .string c.outputEvent)]⟩
  | .dataDomain d =>
    let iri := cfg.iris.clusterResource "data-domains" d.name
    some ⟨iri, "DataDomainDeclared", none, .object
      [("domain_iri", .string iri), ("name", .string d.name), ("steward", .string d.steward),
        ("sensitivity", .string d.sensitivity)]⟩
  | .dataProduct d =>
    let iri := cfg.iris.resource d.product "data-products" d.name
    some ⟨iri, "DataProductDeclared", some d.product, .object
      [("data_product_iri", .string iri), ("name", .string d.name), ("product", .string d.product),
        ("domain", .string d.domain), ("version", .string d.version)]⟩

/-- The IRI that the tags of a declaration are added to. For a role it is built in another way than
the source of its event. -/
def tagIri (cfg : ApiConfig) : ResourceDeclaration → String
  | .role r => cfg.iris.resource (r.product.getD "platform") "roles" r.name
  | .scope s => cfg.iris.resource s.product "scopes" s.name
  | .m2mPermission m => cfg.iris.resource m.product "m2m-permissions" m.name
  | decl => ((declared cfg decl).map Declared.iri).getD ""

/-- The idempotency key of a declaration. -/
def applyKey (decl : ResourceDeclaration) (correlationId : Uuid) : String :=
  "apply-" ++ decl.resourceType ++ "-" ++ decl.resourceName ++ "-" ++ correlationId.display

/-- The envelope of a declaration. -/
def declaredEvent (cfg : ApiConfig) (req : ApplyRequest) (slot : Slot) (decl : ResourceDeclaration)
    (d : Declared) : EventEnvelope :=
  { (EventEnvelope.new slot.id slot.now ⟨cfg.iris.eventSchema d.eventType 1⟩ d.eventType ⟨d.iri⟩
      d.product req.correlationId d.payload).withIdempotencyKey (applyKey decl req.correlationId) with
    traceparent := req.traceparent }

/-- The envelope of a tag. -/
def tagEvent (cfg : ApiConfig) (req : ApplyRequest) (slot : Slot) (decl : ResourceDeclaration)
    (tag : String × String) : EventEnvelope :=
  EventEnvelope.new slot.id slot.now ⟨cfg.iris.eventSchema "TagAdded" 1⟩ "TagAdded"
    ⟨tagIri cfg decl⟩ decl.productName req.correlationId
    (.object [("resource_iri", .string (tagIri cfg decl)), ("key", .string tag.1),
      ("value", .string tag.2)])

/-! ## The handlers -/

/-- The tags of a declaration; an append that fails is only reported. -/
def appendTags (cfg : ApiConfig) (req : ApplyRequest) (i : ℕ) (decl : ResourceDeclaration) :
    ℕ → List (String × String) → Api Unit
  | _, [] => pure ()
  | t, tag :: tags => do
    let slot := req.slot i (t + 1)
    let _ ← appendEvent (tagEvent cfg req slot decl tag) slot.refused
    appendTags cfg req i decl (t + 1) tags

/-- The part of the loop after the event of a declaration has been built. -/
def recordDeclaration (cfg : ApiConfig) (req : ApplyRequest) (i : ℕ) (decl : ResourceDeclaration) :
    Api (List ApplyResult) :=
  match declared cfg decl with
  | none => pure []
  | some d => do
    let slot := req.slot i 0
    match ← appendEvent (declaredEvent cfg req slot decl d) slot.refused with
    | none => do
      appendTags cfg req i decl 0 decl.tags
      pure [⟨decl.resourceName, decl.resourceType, none⟩]
    | some e => pure [⟨decl.resourceName, decl.resourceType, some e⟩]

/-- The loop of `handle_apply`, from a position on. -/
def applyLoop (cfg : ApiConfig) (req : ApplyRequest) :
    ℕ → List ResourceDeclaration → List ApplyResult → Api ApplyAnswer
  | _, [], results => pure (.ok req.correlationId results)
  | i, decl :: decls, results => do
    match ← checkDeclaration cfg decl with
    | some answer => pure answer
    | none =>
      let result ← recordDeclaration cfg req i decl
      applyLoop cfg req (i + 1) decls (results ++ result)

/-- `handle_apply`. -/
def handleApply (cfg : ApiConfig) (req : ApplyRequest) : Api ApplyAnswer :=
  if !cfg.hasEventLog then pure (.serviceUnavailable "event log not available")
  else
    match req.file.validate with
    | .error reason => pure (.badRequest ("Resource validation failed: " ++ reason))
    | .ok () => applyLoop cfg req 0 req.file.sortForProvisioning []

/-- A request to delete a product. -/
structure DeleteRequest where
  product : String
  correlationId : Uuid
  slot : Slot
deriving DecidableEq

/-- The answers of `handle_delete`. -/
inductive DeleteAnswer where
  /-- 503. -/
  | serviceUnavailable (error : String)
  /-- 202. -/
  | accepted (product : String) (correlationId : Uuid)
  /-- 500. -/
  | internalServerError (error : PiCloudError)
deriving DecidableEq

/-- The envelope of a deletion. -/
def deletedEvent (cfg : ApiConfig) (req : DeleteRequest) : EventEnvelope :=
  EventEnvelope.new req.slot.id req.slot.now ⟨cfg.iris.eventSchema "ProductDeleted" 1⟩
    "ProductDeleted" ⟨cfg.iris.product req.product⟩ (some req.product) req.correlationId
    (.object [("product_iri", .string (cfg.iris.product req.product)),
      ("product_name", .string req.product)])

/-- `handle_delete`. -/
def handleDelete (cfg : ApiConfig) (req : DeleteRequest) : Api DeleteAnswer :=
  if !cfg.hasEventLog then pure (.serviceUnavailable "event log not available")
  else do
    match ← appendEvent (deletedEvent cfg req) req.slot.refused with
    | none => pure (.accepted req.product req.correlationId)
    | some e => pure (.internalServerError e)

end Picloud
