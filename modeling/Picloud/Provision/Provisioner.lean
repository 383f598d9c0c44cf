import Picloud.Domain.Specs
import Picloud.Ingress.Router

/-!
# Provisioning a declared resource

Reference: `provision_resource` of `picloud-http/src/provisioner.rs`, with the parsers of its
payloads. What a handler does with the backends is the list of its calls. The records inside a
payload are read from objects; the other forms that `serde` accepts for them are written nowhere.
-/

namespace Picloud

open Lib

/-! ## Backends -/

/-- `WorkloadSpec`. -/
inductive WorkloadSpec where
  | container (spec : ContainerSpec)
  | binary (spec : BinarySpec)
deriving DecidableEq

/-- `IngressRoute`: an entry of the legacy table. -/
structure IngressRoute where
  path : String
  targetPort : UInt16
  product : String
deriving DecidableEq

/-- A call to the storage backend, the scheduler, the secret store, the legacy routing table or the
router. -/
inductive BackendCall where
  | allocateVolume (iri : ResourceIri) (sizeGb : ℕ) (intent : StorageIntent) (volumeType : VolumeType)
  | deleteVolume (iri : ResourceIri)
  | schedule (iri : ResourceIri) (spec : WorkloadSpec)
  | stop (iri : ResourceIri)
  | storeSecret (product name value : String)
  | insertRoute (iri : String) (route : IngressRoute)
  | upsertRoute (host : String) (entry : RouteEntry)
deriving DecidableEq

/-- What the provisioner is configured with, and `Url::parse`. -/
structure ProvisionConfig where
  iris : IriBuilder
  /-- `ingress_routes` is there. -/
  hasTable : Bool
  /-- `ingress_router` is there. -/
  hasRouter : Bool
  /-- `Url::parse(text).is_ok()`. -/
  isUrl : String → Bool

/-! ## Reading a payload -/

/-- `payload.get(key).and_then(|v| v.as_str())`. -/
def Json.text (payload : Json) (key : String) : Option String := (payload.get? key).bind Json.asStr

/-- The items of `payload.get(key)`, if it is an array. -/
def Json.items (payload : Json) (key : String) : List Json :=
  ((payload.get? key).bind Json.asArray).getD []

/-- `serde_json::from_value::<VolumeMount>`. -/
def VolumeMount.ofJson (j : Json) : Option VolumeMount := do
  let volume ← j.text "volume"
  let path ← j.text "path"
  let readOnly ← (j.get? "read_only").bind Json.asBool
  return ⟨volume, path, readOnly⟩

/-- `serde_json::from_value::<EnvValue>`: the variants are untagged and tried in order. -/
def EnvValue.ofJson : Json → Option EnvValue
  | .string s => some (.literal s)
  | j => (j.text "secret").map .secret

/-- `serde_json::from_value::<Protocol>`. -/
def Protocol.ofJson : Json → Option Protocol
  | .string "tcp" => some .tcp
  | .string "udp" => some .udp
  | _ => none

/-- `serde_json::from_value::<PortMapping>`. -/
def PortMapping.ofJson (j : Json) : Option PortMapping := do
  let port ← ((j.get? "port").bind Json.asU64).filter (· < 2 ^ 16)
  let protocol ← (j.get? "protocol").bind Protocol.ofJson
  return ⟨UInt16.ofNat port, protocol⟩

/-- `serde_json::from_value::<VolumeType>`. -/
def VolumeType.ofJson : Json → Option VolumeType
  | .string "mounted" => some .mounted
  | .string "raw_block" => some .rawBlock
  | _ => none

/-- `parse_mounts`. -/
def parseMounts (payload : Json) : List VolumeMount :=
  (payload.items "mounts").filterMap VolumeMount.ofJson

/-- `parse_env`: what is no value of a variable counts as its text, or as the empty text. -/
def parseEnv (payload : Json) : List (String × EnvValue) :=
  (((payload.get? "env").bind Json.asObject).getD []).map fun e =>
    (e.1, (EnvValue.ofJson e.2).getD (.literal (e.2.asStr.getD "")))

/-- `parse_resource_limits`. -/
def parseResourceLimits (payload : Json) : ResourceLimits where
  cpuMillicores := ((payload.get? "cpu_millicores").bind Json.asU64).map UInt32.ofNat
  memoryMb := ((payload.get? "memory_mb").bind Json.asU64).map UInt32.ofNat

/-- `parse_ports`. -/
def parsePorts (payload : Json) : List PortMapping :=
  (payload.items "ports").filterMap PortMapping.ofJson

/-- `parse_args`. -/
def parseArgs (payload : Json) : List String := (payload.items "args").filterMap Json.asStr

/-! ## The kinds of resources -/

/-- `provision_volume`: the intent is the default, whatever the payload says. -/
def provisionVolume (iri : ResourceIri) (payload : Json) : List BackendCall :=
  [.allocateVolume iri (((payload.get? "size_gb").bind Json.asU64).getD 1) StorageIntent.default
    (((payload.get? "volume_type").bind VolumeType.ofJson).getD .mounted)]

/-- `provision_secret`. -/
def provisionSecret (payload : Json) : List BackendCall :=
  [.storeSecret ((payload.text "product").getD "default") ((payload.text "name").getD "unknown")
    ((payload.text "value").getD "")]

/-- `provision_ingress`: the route goes to the table and to the router, as far as they are there. -/
def provisionIngress (cfg : ProvisionConfig) (iri : String) (payload : Json) : List BackendCall :=
  let path := (payload.text "path").getD "/"
  let targetPort := UInt16.ofNat (((payload.get? "port").bind Json.asU64).getD 8080)
  let product := (payload.text "product").getD "unknown"
  let host := (payload.text "host").getD "picloud.local"
  let internal := ((payload.get? "internal").bind Json.asBool).getD false
  let ingressIri := if cfg.isUrl iri then iri
    else "https://picloud.local/products/" ++ product ++ "/ingresses/unknown"
  (if cfg.hasTable then [.insertRoute iri ⟨path, targetPort, product⟩] else []) ++
    if cfg.hasRouter then
      [.upsertRoute host ⟨path, "127.0.0.1", targetPort, product, internal, ⟨ingressIri⟩⟩]
    else []

/-- `provision_container`. -/
def provisionContainer (iri : ResourceIri) (payload : Json) : List BackendCall :=
  [.schedule iri (.container
    { image := (payload.text "image").getD "unknown"
      identity := (payload.text "identity").getD "default"
      resources := parseResourceLimits payload
      mounts := parseMounts payload
      env := parseEnv payload
      ports := parsePorts payload
      healthCheck := none
      restartPolicy := .always
      productVersion := payload.text "product_version" })]

/-- `provision_binary`. -/
def provisionBinary (iri : ResourceIri) (payload : Json) : List BackendCall :=
  [.schedule iri (.binary
    { executable := (payload.text "executable").getD "unknown"
      args := parseArgs payload
      identity := (payload.text "identity").getD "default"
      resources := parseResourceLimits payload
      mounts := parseMounts payload
      env := parseEnv payload
      restartPolicy := .always
      productVersion := payload.text "product_version" })]

/-- The calls for a type of resource; event subscriptions and unknown types need none. -/
def provisionByType (cfg : ProvisionConfig) (resourceType iri : String) (payload : Json) :
    List BackendCall :=
  match resourceType with
  | "Volume" => provisionVolume ⟨iri⟩ payload
  | "Container" => provisionContainer ⟨iri⟩ payload
  | "Binary" => provisionBinary ⟨iri⟩ payload
  | "Secret" => provisionSecret payload
  | "Ingress" => provisionIngress cfg iri payload
  | _ => []

/-- The calls of `provision_resource`; a payload without a type or an IRI is skipped. -/
def provisionCalls (cfg : ProvisionConfig) (event : EventEnvelope) : List BackendCall :=
  match event.payload.text "resource_type", event.payload.text "resource_iri" with
  | some resourceType, some iri => provisionByType cfg resourceType iri event.payload
  | _, _ => []

/-- The event that `provision_resource` appends, from the error of its calls. -/
def provisionResult (cfg : ProvisionConfig) (id : Uuid) (now : ℤ) (event : EventEnvelope)
    (iri : String) (error : Option String) : EventEnvelope :=
  let eventType := match error with
    | none => "ResourceReady"
    | some _ => "ResourceFailed"
  EventEnvelope.new id now ⟨cfg.iris.eventSchema eventType 1⟩ eventType ⟨iri⟩ event.product
    event.correlationId (.object (("resource_iri", .string iri) ::
      error.toList.map fun reason => ("reason", .string reason)))

end Picloud
