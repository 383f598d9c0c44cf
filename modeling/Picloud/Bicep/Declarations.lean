import Picloud.Bicep.Bytes
import Picloud.Domain.Declarations
import Picloud.Lib.Assoc

/-!
# Declarations in Bicep texts

Reference: `picloud-domain/src/parser.rs`, the extractors from `get_string_required` to
`bicep_value_to_json`, `parse_bicep_declaration`, `parse_bicep` and `ResourceFile::parse`. The display of
floating point numbers and the JSON form of a file are the environment's. Fields that
`ResourceDeclaration` leaves out are read for their errors only.
-/

namespace Picloud.Bicep

open Lib

/-- What is outside this repository: `f64::to_string`, and `serde_json` at resource files. -/
structure BicepEnv where
  display : Binary64 → String
  parseJson : String → Except String (List ResourceDeclaration)

/-! ## Extractors -/

section Extractors

variable (display : Binary64 → String)

/-- A text, or a number as a text. -/
def BicepValue.text : BicepValue → Option String
  | .str s => some s
  | .num n => some (display n)
  | _ => none

/-- `get_string_required`. -/
def getStringRequired (kv : Pairs) (key resource : String) : Except String String :=
  match Assoc.get kv key with
  | some v =>
    match v.text display with
    | some s => .ok s
    | none => .error (resource ++ ": expected string for key '" ++ key ++ "'")
  | none => .error (resource ++ ": missing required key '" ++ key ++ "'")

/-- `get_string_optional`. -/
def getStringOptional (kv : Pairs) (key : String) : Option String :=
  (Assoc.get kv key).bind (·.text display)

/-- `get_u64_or_default`. -/
def getU64OrDefault (kv : Pairs) (key : String) (default : ℕ) : ℕ :=
  match Assoc.get kv key with
  | some (.num n) => n.saturate (2 ^ 64 - 1)
  | some (.str s) => (parseU64 s).getD default
  | _ => default

/-- `get_bool_or_default`. -/
def getBoolOrDefault (kv : Pairs) (key : String) (default : Bool) : Bool :=
  match Assoc.get kv key with
  | some (.bool b) => b
  | some (.str s) => s = "true"
  | _ => default

/-- The array at a key, with a function for its elements; no elements without the key. -/
def getArray {α : Type} (kv : Pairs) (key noArray : String) (item : BicepValue → Except String α) :
    Except String (List α) :=
  match Assoc.get kv key with
  | some (.array items) => items.mapM item
  | some _ => .error noArray
  | none => .ok []

/-- `get_string_array`. -/
def getStringArray (kv : Pairs) (key : String) : Except String (List String) :=
  getArray kv key ("expected array for key '" ++ key ++ "'") fun item =>
    match item.text display with
    | some s => .ok s
    | none => .error ("expected string in array '" ++ key ++ "'")

/-- `s.parse::<u16>()`. -/
def parseU16 (s : String) : Option ℕ := (parseNat s).filter (· < 2 ^ 16)

/-- An element of `get_u16_array`. -/
def u16Item (key : String) : BicepValue → Except String UInt16
  | .num n => .ok (UInt16.ofNat (n.saturate (2 ^ 16 - 1)))
  | .str s =>
    match parseU16 s with
    | some n => .ok (UInt16.ofNat n)
    | none => .error ("invalid number in array '" ++ key ++ "'")
  | _ => .error ("expected number in array '" ++ key ++ "'")

/-- `get_u16_array`. -/
def getU16Array (kv : Pairs) (key : String) : Except String (List UInt16) :=
  getArray kv key ("expected array for key '" ++ key ++ "'") (u16Item key)

/-- An array of objects. -/
def getObjectArray {α : Type} (kv : Pairs) (key noArray noObject : String)
    (item : Pairs → Except String α) : Except String (List α) :=
  getArray kv key noArray fun
    | .object obj => item obj
    | _ => .error noObject

/-- `get_mount_array`. -/
def getMountArray (kv : Pairs) (key : String) : Except String (List MountDecl) :=
  getObjectArray kv key "expected array for 'mounts'" "expected object in mounts array" fun obj => do
    let volume ← getStringRequired display obj "volume" "mount"
    let path ← getStringRequired display obj "path" "mount"
    return ⟨volume, path, getBoolOrDefault obj "read_only" false⟩

mutual

/-- `bicep_value_to_json`; a number that is not finite becomes `null`. -/
def bicepValueToJson : BicepValue → Json
  | .str s => .string s
  | .num (.finite negative mantissa exponent) =>
    .number (.float (Binary64.finite negative mantissa exponent).toBits)
  | .num _ => .null
  | .bool b => .bool b
  | .array items => .array (itemsToJson items)
  | .object pairs => .object (pairsToJson [] pairs)

def itemsToJson : List BicepValue → List Json
  | [] => []
  | v :: vs => bicepValueToJson v :: itemsToJson vs

/-- The map that is filled pair by pair. -/
def pairsToJson (map : Assoc String Json) : List (String × BicepValue) → Assoc String Json
  | [] => map
  | (key, v) :: pairs => pairsToJson (Assoc.set map key (bicepValueToJson v)) pairs

end

/-- `get_env_map`. -/
def getEnvMap (kv : Pairs) (key : String) : Except String (List (String × Json)) :=
  match Assoc.get kv key with
  | some (.object obj) => .ok (pairsToJson [] obj)
  | some _ => .error "expected object for 'env'"
  | none => .ok []

/-- `trim_start_matches` and `trim_end_matches` of a character. -/
def trimMatches (c : Char) (cs : List Char) : List Char := (cs.dropWhile (· = c)).rdropWhile (· = c)

/-- The key of a tag, without quotation marks around it. -/
def cleanKey (key : String) : String := String.ofList (trimMatches '"' (trimMatches '\'' key.toList))

/-- The first object at a key. -/
def objectAt (kv : Pairs) (key : String) : Option Pairs :=
  kv.findSome? fun
    | (k, .object obj) => if k = key then some obj else none
    | _ => none

/-- `get_tags_map`. -/
def getTagsMap (kv : Pairs) (key : String) : List (String × String) :=
  match objectAt kv key with
  | some obj => obj.foldl (fun map pair =>
      match pair.2 with
      | .str s => Assoc.set map (cleanKey pair.1) s
      | _ => map) []
  | none => []

/-- `get_config_entries`. -/
def getConfigEntries (kv : Pairs) (key : String) : Except String (List ConfigEntryDecl) :=
  getObjectArray kv key "expected array for 'entries'" "expected object in entries array" fun obj => do
    let entryKey ← getStringRequired display obj "key" "config-entry"
    let value ← getStringRequired display obj "value" "config-entry"
    return ⟨entryKey, value, (getStringOptional display obj "type").getD "string", getTagsMap obj "tags"⟩

/-- `get_nested_string`. -/
def getNestedString (kv : Pairs) (outer inner : String) : Option String :=
  (objectAt kv outer).bind (getStringOptional display · inner)

/-- `get_nested_string_array`. -/
def getNestedStringArray (kv : Pairs) (outer inner : String) : Except String (List String) :=
  match objectAt kv outer with
  | some obj => getStringArray display obj inner
  | none => .ok []

/-- `get_capability_deps`: a capability and its least version. -/
def getCapabilityDeps (kv : Pairs) (key : String) : Except String (List (String × String)) :=
  getObjectArray kv key "expected array for capabilities" "expected object in capabilities array"
    fun obj => do
      let capability ← getStringRequired display obj "capability" "capability-dep"
      let minVersion ← getStringRequired display obj "minVersion" "capability-dep"
      return (capability, minVersion)

/-- `get_data_product_deps`. -/
def getDataProductDeps (kv : Pairs) (key : String) : Except String (List DataProductDepDecl) :=
  getObjectArray kv key "expected array for dataProducts" "expected object in dataProducts array"
    fun obj => do
      let source ← getStringRequired display obj "source" "data-product-dep"
      let minVersion ← getStringRequired display obj "minVersion" "data-product-dep"
      return ⟨source, minVersion⟩

end Extractors

/-! ## Declarations -/

section Declaration

variable (display : Binary64 → String) (name : String) (kv : Pairs)

/-- A key that a declaration must have. -/
abbrev required (key : String) : Except String String := getStringRequired display kv key name

def productDecl : Except String ResourceDeclaration := do
  let _ ← getCapabilityDeps display kv "capabilities"
  let dataProducts ← getDataProductDeps display kv "dataProducts"
  let version ← required display name kv "version"
  return .product ⟨name, version, getStringOptional display kv "description", dataProducts,
    getTagsMap kv "tags"⟩

def volumeDecl : Except String ResourceDeclaration := do
  let product ← required display name kv "product"
  return .volume ⟨name, product, UInt64.ofNat (getU64OrDefault kv "size_gb" 10),
    getStringOptional display kv "durability", getStringOptional display kv "performance", none, none,
    getTagsMap kv "tags"⟩

def containerDecl : Except String ResourceDeclaration := do
  let mounts ← getMountArray display kv "mounts"
  let env ← getEnvMap kv "env"
  let ports ← getU16Array kv "ports"
  let product ← required display name kv "product"
  let image ← required display name kv "image"
  return .container ⟨name, product, image, (getStringOptional display kv "identity").getD "default",
    getStringOptional display kv "cpu", getStringOptional display kv "memory", mounts, env, ports,
    getTagsMap kv "tags"⟩

def binaryDecl : Except String ResourceDeclaration := do
  let mounts ← getMountArray display kv "mounts"
  let env ← getEnvMap kv "env"
  let args ← getStringArray display kv "args"
  let product ← required display name kv "product"
  let executable ← required display name kv "executable"
  return .binary ⟨name, product, executable, args, (getStringOptional display kv "identity").getD "default",
    getStringOptional display kv "cpu", getStringOptional display kv "memory", mounts, env,
    getTagsMap kv "tags"⟩

def eventSubscriptionDecl : Except String ResourceDeclaration := do
  let product ← required display name kv "product"
  let source ← required display name kv "source"
  let event ← required display name kv "event"
  let handler ← required display name kv "handler"
  return .eventSubscription ⟨name, product, source, event, handler, getTagsMap kv "tags"⟩

def ingressDecl : Except String ResourceDeclaration := do
  let product ← required display name kv "product"
  let target ← required display name kv "target"
  let path ← required display name kv "path"
  return .ingress ⟨name, product, target, UInt16.ofNat (getU64OrDefault kv "port" 0), path,
    getBoolOrDefault kv "tls" true, getStringOptional display kv "host",
    getBoolOrDefault kv "internal" false, getTagsMap kv "tags"⟩

def secretDecl : Except String ResourceDeclaration := do
  let product ← required display name kv "product"
  let value ← required display name kv "value"
  return .secret ⟨name, product, value, getTagsMap kv "tags"⟩

def roleDecl : Except String ResourceDeclaration := do
  let permissions ← getStringArray display kv "permissions"
  return .role ⟨name, getStringOptional display kv "product", permissions, getTagsMap kv "tags"⟩

def configDecl : Except String ResourceDeclaration := do
  let entries ← getConfigEntries display kv "entries"
  let product ← required display name kv "product"
  return .config ⟨name, product, entries, getTagsMap kv "tags"⟩

def featureFlagDecl : Except String ResourceDeclaration := do
  let product ← required display name kv "product"
  let version ← required display name kv "version"
  return .featureFlag ⟨name, product, getStringOptional display kv "description",
    getBoolOrDefault kv "enabled" true, version, getTagsMap kv "tags"⟩

def groupDecl : Except String ResourceDeclaration := do
  let roles ← getStringArray display kv "roles"
  return .group ⟨name, getStringOptional display kv "description", roles, getTagsMap kv "tags"⟩

def inferenceRuleDecl : Except String ResourceDeclaration := do
  let triggerEvents := (getStringArray display kv "trigger-events").toOption.getD []
  let construct ← required display name kv "construct"
  return .inferenceRule ⟨name, getStringOptional display kv "description",
    (getStringOptional display kv "scope").getD "platform",
    (getStringOptional display kv "trigger").getD "event", triggerEvents,
    getBoolOrDefault kv "reconciliation" false, construct, getTagsMap kv "tags"⟩

def scopeDecl : Except String ResourceDeclaration := do
  let permissions ← getStringArray display kv "permissions"
  let product ← required display name kv "product"
  return .scope ⟨name, product, permissions, getTagsMap kv "tags"⟩

def m2mPermissionDecl : Except String ResourceDeclaration := do
  let scopes ← getStringArray display kv "scopes"
  let product ← required display name kv "product"
  let client ← required display name kv "client"
  return .m2mPermission ⟨name, product, client, scopes, getTagsMap kv "tags"⟩

/-- A text of a block that a declaration must have. -/
def requiredNested (outer inner missing : String) : Except String String :=
  match getNestedString display kv outer inner with
  | some s => .ok s
  | none => .error (validationErr name missing)

def capabilityDecl : Except String ResourceDeclaration := do
  let input ← requiredNested display name kv "events" "input" "capability events.input is required"
  let output ← requiredNested display name kv "events" "output" "capability events.output is required"
  let version ← required display name kv "version"
  return .capability ⟨name, version, getStringOptional display kv "ontology",
    getStringOptional display kv "shapes", input, output, getTagsMap kv "tags"⟩

def dataDomainDecl : Except String ResourceDeclaration := do
  let steward ← required display name kv "steward"
  return .dataDomain ⟨name, steward, (getStringOptional display kv "sensitivity").getD "internal",
    getTagsMap kv "tags"⟩

def dataProductDecl : Except String ResourceDeclaration := do
  let triggers ← getNestedStringArray display kv "freshness" "triggers"
  let maxAge ← requiredNested display name kv "freshness" "maxAge" "freshness.maxAge is required"
  let _ ← getNestedStringArray display kv "access" "roles"
  let product ← required display name kv "product"
  let domain ← required display name kv "domain"
  let version ← required display name kv "version"
  let projection ← required display name kv "projection"
  return .dataProduct ⟨name, product, domain, version, getStringOptional display kv "ontology",
    getStringOptional display kv "shapes", projection, maxAge, triggers, getTagsMap kv "tags"⟩

/-- `parse_bicep_declaration`, behind the pairs of its body. -/
def declarationOf (resourceType : String) : Except String ResourceDeclaration :=
  if resourceType = "product" then productDecl display name kv
  else if resourceType = "volume" then volumeDecl display name kv
  else if resourceType = "container" then containerDecl display name kv
  else if resourceType = "binary" then binaryDecl display name kv
  else if resourceType = "event-subscription" then eventSubscriptionDecl display name kv
  else if resourceType = "ingress" then ingressDecl display name kv
  else if resourceType = "secret" then secretDecl display name kv
  else if resourceType = "role" then roleDecl display name kv
  else if resourceType = "config" then configDecl display name kv
  else if resourceType = "feature-flag" then featureFlagDecl display name kv
  else if resourceType = "group" then groupDecl display name kv
  else if resourceType = "inference-rule" then inferenceRuleDecl display name kv
  else if resourceType = "scope" then scopeDecl display name kv
  else if resourceType = "m2m-permission" then m2mPermissionDecl display name kv
  else if resourceType = "capability" then capabilityDecl display name kv
  else if resourceType = "data-domain" then dataDomainDecl display name kv
  else if resourceType = "data-product" then dataProductDecl display name kv
  else .error ("unknown resource type: " ++ resourceType)

end Declaration

/-! ## Files -/

section Files

variable (env : BicepEnv)

/-- `parse_bicep_declaration`, where the body is read with the fuel. -/
def parseBicepDeclaration (fuel : ℕ) (decl : TextDecl) : Except Failure ResourceDeclaration := do
  let kv ← Bytes.parseBicepKv fuel decl.body
  (declarationOf env.display decl.name kv decl.resourceType).mapError Failure.reason

/-- `parse_bicep`, where each loop and the nesting may use the fuel. -/
def parseBicep (fuel : ℕ) (input : List Char) : Except Failure (List ResourceDeclaration) := do
  let decls ← Bytes.splitBicepDeclarations fuel input
  decls.mapM (parseBicepDeclaration env fuel)

/-- `ResourceFile::parse`. -/
def parseFile (fuel : ℕ) (input : String) : Except Failure (List ResourceDeclaration) :=
  let trimmed := trimChars input.toList
  if trimmed.head? = some '\x7b' then (env.parseJson (String.ofList trimmed)).mapError Failure.reason
  else parseBicep env fuel trimmed

end Files

end Picloud.Bicep
