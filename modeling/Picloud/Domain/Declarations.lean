import Picloud.Domain.Payload
import Picloud.Lib.JsonLines
import Picloud.Lib.Split
import Mathlib.Data.List.Sort

/-!
# Resource declarations

Reference: `picloud-domain/src/parser.rs`, the declarations of a resource file, `validate` and
`sort_for_provisioning`, and `VersionOp::parse` of `resources.rs`. A hash map is the list of its
entries, in the order in which it is iterated. The fields that no function here and no handler of
`apply` reads are left out.
-/

namespace Picloud

open Lib

/-! ## Declarations -/

/-- `DataProductDepDecl`. -/
structure DataProductDepDecl where
  source : String
  minVersion : String
deriving DecidableEq

/-- `ProductDecl`. -/
structure ProductDecl where
  name : String
  version : String
  description : Option String
  dataProducts : List DataProductDepDecl
  tags : List (String × String)
deriving DecidableEq

/-- `SnapshotDeclBlock`. -/
structure SnapshotDeclBlock where
  enabled : Bool
  schedule : String
  storageSecret : String
  retentionDaily : UInt32
  retentionWeekly : UInt32
  retentionMonthly : UInt32
deriving DecidableEq

/-- `OffsiteDeclBlock`. -/
structure OffsiteDeclBlock where
  enabled : Bool
  targetSecret : String
  frequency : String
  encryption : Bool
deriving DecidableEq

/-- `VolumeDecl`. -/
structure VolumeDecl where
  name : String
  product : String
  sizeGb : UInt64
  durability : Option String
  performance : Option String
  snapshots : Option SnapshotDeclBlock
  offsite : Option OffsiteDeclBlock
  tags : List (String × String)
deriving DecidableEq

/-- `MountDecl`. -/
structure MountDecl where
  volume : String
  path : String
  readOnly : Bool
deriving DecidableEq

/-- `ContainerDecl`. -/
structure ContainerDecl where
  name : String
  product : String
  image : String
  identity : String
  cpu : Option String
  memory : Option String
  mounts : List MountDecl
  env : List (String × Json)
  ports : List UInt16
  tags : List (String × String)
deriving DecidableEq

/-- `BinaryDecl`. -/
structure BinaryDecl where
  name : String
  product : String
  executable : String
  args : List String
  identity : String
  cpu : Option String
  memory : Option String
  mounts : List MountDecl
  env : List (String × Json)
  tags : List (String × String)
deriving DecidableEq

/-- `EventSubscriptionDecl`. -/
structure EventSubscriptionDecl where
  name : String
  product : String
  source : String
  event : String
  handler : String
  tags : List (String × String)
deriving DecidableEq

/-- `IngressDecl`. -/
structure IngressDecl where
  name : String
  product : String
  target : String
  port : UInt16
  path : String
  tls : Bool
  host : Option String
  internal : Bool
  tags : List (String × String)
deriving DecidableEq

/-- `SecretDecl`. -/
structure SecretDecl where
  name : String
  product : String
  value : String
  tags : List (String × String)
deriving DecidableEq

/-- `RoleDecl`. -/
structure RoleDecl where
  name : String
  product : Option String
  permissions : List String
  tags : List (String × String)
deriving DecidableEq

/-- `ConfigEntryDecl`. -/
structure ConfigEntryDecl where
  key : String
  value : String
  configType : String
  tags : List (String × String)
deriving DecidableEq

/-- `ConfigDecl`. -/
structure ConfigDecl where
  name : String
  product : String
  entries : List ConfigEntryDecl
  tags : List (String × String)
deriving DecidableEq

/-- `FeatureFlagDecl`. -/
structure FeatureFlagDecl where
  name : String
  product : String
  description : Option String
  enabled : Bool
  version : String
  tags : List (String × String)
deriving DecidableEq

/-- `GroupDecl`. -/
structure GroupDecl where
  name : String
  description : Option String
  roles : List String
  tags : List (String × String)
deriving DecidableEq

/-- `InferenceRuleDecl`. -/
structure InferenceRuleDecl where
  name : String
  description : Option String
  scope : String
  trigger : String
  triggerEvents : List String
  reconciliation : Bool
  construct : String
  tags : List (String × String)
deriving DecidableEq

/-- `ScopeDecl`. -/
structure ScopeDecl where
  name : String
  product : String
  permissions : List String
  tags : List (String × String)
deriving DecidableEq

/-- `M2mPermissionDecl`. -/
structure M2mPermissionDecl where
  name : String
  product : String
  client : String
  scopes : List String
  tags : List (String × String)
deriving DecidableEq

/-- `CapabilityDecl`, with the two fields of its `events`. -/
structure CapabilityDecl where
  name : String
  version : String
  ontology : Option String
  shapes : Option String
  inputEvent : String
  outputEvent : String
  tags : List (String × String)
deriving DecidableEq

/-- `DataDomainDecl`. -/
structure DataDomainDecl where
  name : String
  steward : String
  sensitivity : String
  tags : List (String × String)
deriving DecidableEq

/-- `DataProductDecl`, with the two fields of its `freshness`. -/
structure DataProductDecl where
  name : String
  product : String
  domain : String
  version : String
  ontology : Option String
  shapes : Option String
  projection : String
  maxAge : String
  triggers : List String
  tags : List (String × String)
deriving DecidableEq

/-- `ResourceDeclaration`. -/
inductive ResourceDeclaration where
  | product (p : ProductDecl)
  | volume (v : VolumeDecl)
  | container (c : ContainerDecl)
  | binary (b : BinaryDecl)
  | eventSubscription (e : EventSubscriptionDecl)
  | ingress (i : IngressDecl)
  | secret (s : SecretDecl)
  | role (r : RoleDecl)
  | config (c : ConfigDecl)
  | featureFlag (f : FeatureFlagDecl)
  | group (g : GroupDecl)
  | inferenceRule (r : InferenceRuleDecl)
  | scope (s : ScopeDecl)
  | m2mPermission (m : M2mPermissionDecl)
  | capability (c : CapabilityDecl)
  | dataDomain (d : DataDomainDecl)
  | dataProduct (d : DataProductDecl)
deriving DecidableEq

namespace ResourceDeclaration

/-- `product_name`. -/
def productName : ResourceDeclaration → Option String
  | .product _ | .group _ | .inferenceRule _ | .capability _ | .dataDomain _ => none
  | .volume v => some v.product
  | .container c => some c.product
  | .binary b => some b.product
  | .eventSubscription e => some e.product
  | .ingress i => some i.product
  | .secret s => some s.product
  | .role r => r.product
  | .config c => some c.product
  | .featureFlag f => some f.product
  | .scope s => some s.product
  | .m2mPermission m => some m.product
  | .dataProduct d => some d.product

/-- `resource_name`. -/
def resourceName : ResourceDeclaration → String
  | .product p => p.name
  | .volume v => v.name
  | .container c => c.name
  | .binary b => b.name
  | .eventSubscription e => e.name
  | .ingress i => i.name
  | .secret s => s.name
  | .role r => r.name
  | .config c => c.name
  | .featureFlag f => f.name
  | .group g => g.name
  | .inferenceRule r => r.name
  | .scope s => s.name
  | .m2mPermission m => m.name
  | .capability c => c.name
  | .dataDomain d => d.name
  | .dataProduct d => d.name

/-- `tags`. -/
def tags : ResourceDeclaration → List (String × String)
  | .product p => p.tags
  | .volume v => v.tags
  | .container c => c.tags
  | .binary b => b.tags
  | .eventSubscription e => e.tags
  | .ingress i => i.tags
  | .secret s => s.tags
  | .role r => r.tags
  | .config c => c.tags
  | .featureFlag f => f.tags
  | .group g => g.tags
  | .inferenceRule r => r.tags
  | .scope s => s.tags
  | .m2mPermission m => m.tags
  | .capability c => c.tags
  | .dataDomain d => d.tags
  | .dataProduct d => d.tags

/-- `resource_type`. -/
def resourceType : ResourceDeclaration → String
  | .product _ => "product"
  | .volume _ => "volume"
  | .container _ => "container"
  | .binary _ => "binary"
  | .eventSubscription _ => "event-subscription"
  | .ingress _ => "ingress"
  | .secret _ => "secret"
  | .role _ => "role"
  | .config _ => "config"
  | .featureFlag _ => "feature-flag"
  | .group _ => "group"
  | .inferenceRule _ => "inference-rule"
  | .scope _ => "scope"
  | .m2mPermission _ => "m2m-permission"
  | .capability _ => "capability"
  | .dataDomain _ => "data-domain"
  | .dataProduct _ => "data-product"

end ResourceDeclaration

/-! ## Validation -/

/-- `s.parse::<u64>()`. -/
def parseU64 (s : String) : Option ℕ := (parseNat s).filter (· < 2 ^ 64)

/-- `s.strip_prefix(start)`. -/
def stripStart (start s : String) : Option String :=
  if start.toList <+: s.toList then some (String.ofList (s.toList.drop start.length)) else none

/-- `VersionOp::parse(expr).is_some()`: a range, a comparison, or a bare number. -/
def isVersionOp (text : String) : Bool :=
  let expr := trim text
  let number (s : String) : Bool := (parseU64 (trim s)).isSome
  match breakOn "..".toList expr.toList with
  | some (lo, hi) => number (String.ofList lo) && number (String.ofList hi)
  | none =>
    match (stripStart ">=" expr).or (stripStart ">" expr) |>.or (stripStart "<=" expr) |>.or
      (stripStart "<" expr) |>.or (stripStart "=" expr) with
    | some n => number n
    | none => (parseU64 expr).isSome

/-- `validation_err`: the reason of a `ResourceValidationFailed`. -/
def validationErr (resource reason : String) : String := resource ++ ": " ++ reason

/-- The first of some checks that fails decides. -/
def firstFailure : List (Bool × String) → Except String Unit
  | [] => .ok ()
  | (failed, reason) :: checks => if failed then .error reason else firstFailure checks

/-- `ResourceDeclaration::validate`. -/
def ResourceDeclaration.validate : ResourceDeclaration → Except String Unit
  | .product p => firstFailure
    [(p.name = "", validationErr "product" "name cannot be empty"),
      (p.version = "", validationErr p.name "version cannot be empty")]
  | .volume v => firstFailure
    [(v.name = "" ∨ v.product = "", validationErr "volume" "name and product cannot be empty"),
      (v.sizeGb = 0, validationErr v.name "size_gb must be greater than 0")]
  | .container c => firstFailure
    [(c.name = "" ∨ c.product = "" ∨ c.image = "",
      validationErr "container" "name, product, and image cannot be empty")]
  | .binary b => firstFailure
    [(b.name = "" ∨ b.product = "" ∨ b.executable = "",
      validationErr "binary" "name, product, and executable cannot be empty")]
  | .eventSubscription e => firstFailure
    [(e.name = "" ∨ e.product = "" ∨ e.source = "",
      validationErr "event-subscription" "name, product, and source cannot be empty")]
  | .ingress i => firstFailure
    [(i.name = "" ∨ i.product = "" ∨ i.target = "",
      validationErr "ingress" "name, product, and target cannot be empty")]
  | .secret s => firstFailure
    [(s.name = "" ∨ s.product = "" ∨ s.value = "",
      validationErr "secret" "name, product, and value cannot be empty")]
  | .role r => firstFailure
    [(r.name = "" ∨ r.permissions = [], validationErr "role" "name and permissions cannot be empty")]
  | .config c => firstFailure
    [(c.name = "" ∨ c.product = "", validationErr "config" "name and product cannot be empty"),
      (∃ entry ∈ c.entries, entry.key = "",
        validationErr c.name "config entry key cannot be empty")]
  | .featureFlag f => firstFailure
    [(f.name = "" ∨ f.product = "" ∨ f.version = "",
      validationErr "feature-flag" "name, product, and version cannot be empty"),
      (!isVersionOp f.version,
        validationErr f.name ("invalid version expression: '" ++ f.version ++ "'"))]
  | .group g => firstFailure
    [(g.name = "", validationErr "group" "name cannot be empty"),
      (g.roles = [], validationErr g.name "roles cannot be empty")]
  | .inferenceRule r => firstFailure
    [(r.name = "", validationErr "inference-rule" "name cannot be empty"),
      (r.construct = "", validationErr r.name "construct query cannot be empty")]
  | .scope s => firstFailure
    [(s.name = "" ∨ s.product = "", validationErr "scope" "name and product cannot be empty"),
      (s.permissions = [], validationErr s.name "permissions cannot be empty")]
  | .m2mPermission m => firstFailure
    [(m.name = "" ∨ m.product = "" ∨ m.client = "",
      validationErr "m2m-permission" "name, product, and client cannot be empty"),
      (m.scopes = [], validationErr m.name "scopes cannot be empty")]
  | .capability c => firstFailure
    [(c.name = "", validationErr "capability" "name cannot be empty"),
      (c.version = "", validationErr c.name "version cannot be empty"),
      (c.inputEvent = "" ∨ c.outputEvent = "",
        validationErr c.name "capability must declare both input and output events"),
      (c.ontology = none ∧ c.shapes = none,
        validationErr c.name "capability must declare ontology or shapes (or both)")]
  | .dataDomain d => firstFailure
    [(d.name = "", validationErr "data-domain" "name cannot be empty"),
      (d.steward = "", validationErr d.name "steward cannot be empty")]
  | .dataProduct d => firstFailure
    [(d.name = "" ∨ d.product = "",
      validationErr "data-product" "name and product cannot be empty"),
      (d.domain = "", validationErr d.name "data product must belong to a data domain"),
      (d.version = "", validationErr d.name "version cannot be empty"),
      (d.projection = "", validationErr d.name "projection query path cannot be empty"),
      (d.triggers = [], validationErr d.name "data product must declare at least one trigger event"),
      (d.maxAge = "", validationErr d.name "data product must declare freshness.maxAge"),
      (d.ontology = none ∧ d.shapes = none,
        validationErr d.name "data product must declare ontology or shapes (or both)")]

/-- `ResourceFile`. -/
structure ResourceFile where
  resources : List ResourceDeclaration
deriving DecidableEq

namespace ResourceFile

variable (file : ResourceFile)

/-- The names of the products that the file declares. -/
def productNames : List String :=
  file.resources.filterMap fun
    | .product p => some p.name
    | _ => none

/-- The names of the volumes that the file declares for a product. -/
def volumeNames (product : String) : List String :=
  file.resources.filterMap fun
    | .volume v => if v.product = product then some v.name else none
    | _ => none

/-- The product of a declaration has to be declared in the file. -/
def validateProduct (decl : ResourceDeclaration) : Except String Unit :=
  match decl.productName with
  | some product =>
    if product ∈ file.productNames then .ok ()
    else .error (decl.resourceName ++ ": references product '" ++ product ++
      "' which is not declared in this file")
  | none => .ok ()

/-- Mounts have to name volumes that the file declares for the product. -/
def validateMounts (name product : String) : List MountDecl → Except String Unit
  | [] => .ok ()
  | mount :: mounts =>
    if mount.volume ∈ file.volumeNames product then validateMounts name product mounts
    else .error (name ++ ": mount references volume '" ++ mount.volume ++
      "' which is not declared in this file for product '" ++ product ++ "'")

/-- The mounts of a container or of a binary. -/
def validateMountsOf : ResourceDeclaration → Except String Unit
  | .container c => file.validateMounts c.name c.product c.mounts
  | .binary b => file.validateMounts b.name b.product b.mounts
  | _ => .ok ()

/-- `ResourceFile::validate`. -/
def validate : Except String Unit := do
  file.resources.forM ResourceDeclaration.validate
  file.resources.forM file.validateProduct
  file.resources.forM file.validateMountsOf

end ResourceFile

/-! ## Order of provisioning -/

/-- The sort key of `sort_for_provisioning`. -/
def ResourceDeclaration.provisioningOrder : ResourceDeclaration → ℕ
  | .capability _ | .dataDomain _ => 0
  | .product _ => 1
  | .volume _ => 2
  | .container _ | .binary _ => 3
  | .dataProduct _ => 4
  | _ => 5

/-- `sort_for_provisioning`; the sort is stable. -/
def ResourceFile.sortForProvisioning (file : ResourceFile) : List ResourceDeclaration :=
  file.resources.insertionSort fun a b => a.provisioningOrder ≤ b.provisioningOrder

end Picloud
