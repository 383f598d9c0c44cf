import Picloud.Compiler.Compile

/-!
# Validation without a cluster

`validate_offline` checks that the required properties are there, that a product which is named by a string
is declared, that images come from the local registry, and the rules for data products. It has its own
table of types and their properties, which knows less than the compiler: it lets a type through that it
does not know, and a product that is not a string. What it accepts is compiled apart from these two
(`compiles_iff`).
-/

namespace Picloud

variable {F : Type}

/-- `ValidationError`; the IRI of the resource is never known. -/
structure ValidationError where
  message : String
  property : Option String
  location : Option String
deriving DecidableEq

/-- `ValidationResult`, the warnings by their messages. -/
structure ValidationResult where
  valid : Bool
  errors : List ValidationError
  warnings : List String
deriving DecidableEq

/-- `required_fields`. -/
def requiredFields : String → List String
  | "product" => ["version"]
  | "container" => ["product", "image"]
  | "binary" => ["product", "executable"]
  | "volume" => ["product", "size"]
  | "feature-flag" => ["product", "enabled", "version"]
  | "config" => ["product"]
  | "inference-rule" => ["product", "construct"]
  | "event-store" => ["product"]
  | "rdf-store" => ["product"]
  | "ingress" => ["product", "target", "port"]
  | "group" => []
  | "event-subscription" => ["product", "source", "event-type", "handler"]
  | "ontology" => ["product", "file"]
  | "role" => ["product"]
  | "scope" => ["product"]
  | "m2m-permission" => ["product", "client", "scopes"]
  | "capability" => ["version", "events"]
  | "data-domain" => ["steward"]
  | "data-product" => ["product", "domain", "version", "projection", "freshness"]
  | _ => []

/-- `type_label`. -/
def typeLabel : String → String
  | "product" => "Product"
  | "container" => "Container"
  | "volume" => "Volume"
  | "binary" => "Binary"
  | "feature-flag" => "FeatureFlag"
  | "rdf-store" => "RdfStore"
  | "event-store" => "EventStore"
  | "config" => "Config"
  | "inference-rule" => "InferenceRule"
  | "ingress" => "Ingress"
  | "ontology" => "Ontology"
  | "group" => "Group"
  | "event-subscription" => "EventSubscription"
  | "role" => "Role"
  | "scope" => "Scope"
  | "m2m-permission" => "M2mPermission"
  | "capability" => "Capability"
  | "data-domain" => "DataDomain"
  | "data-product" => "DataProduct"
  | other => other

/-- A property with the key is there. -/
def hasKey (props : Properties F) (key : String) : Bool := props.any (·.key = key)

/-- An error about a property of a resource in a file. -/
def errorAt (path : String) (resource : ResourceDecl F) (field message : String) : ValidationError where
  message := message
  property := some field
  location := some (path ++ ":" ++ toString resource.line)

/-- The required properties that are missing. -/
def missingFields (path : String) (resource : ResourceDecl F) : List ValidationError :=
  ((requiredFields resource.resourceType).filter fun field => ¬ hasKey resource.properties field).map
    fun field => errorAt path resource field
      (typeLabel resource.resourceType ++ " '" ++ resource.name ++ "': required property '" ++ field ++
        "' is missing")

/-- The product that the resource refers to, when it is not declared. -/
def unknownProduct (products : List String) (path : String) (resource : ResourceDecl F) :
    List ValidationError :=
  if resource.resourceType ≠ "product" ∧ resource.resourceType ≠ "group" then
    match resource.product with
    | some product =>
      if product ∈ products then []
      else [errorAt path resource "product"
        (typeLabel resource.resourceType ++ " '" ++ resource.name ++ "': references product '" ++ product ++
          "' which is not defined in the current file set")]
    | none => []
  else []

/-- The warning about an image from elsewhere. -/
def imageWarning (resource : ResourceDecl F) : List String :=
  if resource.resourceType = "container" then
    match (resource.properties.find? (·.key = "image")).bind (·.value.asString) with
    | some image =>
      if "registry.picloud.local/".toList <+: image.toList then []
      else ["Container '" ++ resource.name ++ "': image '" ++ image ++
        "' does not reference the local registry (registry.picloud.local/). " ++
        "Use 'picloud image import' to import external images."]
    | none => []
  else []

/-- The properties of a block. -/
def PropertyValue.asBlock : PropertyValue F → Option (Properties F)
  | .block props => some props
  | _ => none

/-- `validate_data_product`. -/
def validateDataProduct (path : String) (resource : ResourceDecl F) : List ValidationError :=
  let error (field message : String) : ValidationError :=
    errorAt path resource field ("DataProduct '" ++ resource.name ++ "': " ++ message)
  let freshness :=
    ((resource.properties.find? (·.key = "freshness")).bind (·.value.asBlock)).getD []
  (if hasKey resource.properties "domain" then []
    else [error "domain" "must belong to exactly one data-domain (missing 'domain')"]) ++
  (if hasKey resource.properties "ontology" ∨ hasKey resource.properties "shapes" then []
    else [error "ontology" "must declare at least one of 'ontology' or 'shapes'"]) ++
  (if hasKey freshness "maxAge" ∨ hasKey freshness "max-age" ∨ hasKey freshness "max_age" then []
    else [error "maxAge" "'freshness.maxAge' is required (ADR-056 rule 2)"]) ++
  (if hasKey freshness "triggers" ∨ hasKey freshness "trigger" then []
    else [error "triggers" "'freshness.triggers' must declare at least one event (ADR-056 rule 1)"])

/-- The products that the files declare. -/
def declaredProducts (files : List (ParsedFile F)) : List String :=
  files.flatMap fun file =>
    (file.resources.filter (·.resourceType = "product")).map ResourceDecl.name

/-- The errors of `validate_offline`, in their order. -/
def offlineErrors (files : List (ParsedFile F)) : List ValidationError :=
  (files.flatMap fun file => file.resources.flatMap fun resource =>
    missingFields file.path resource ++ unknownProduct (declaredProducts files) file.path resource) ++
  files.flatMap fun file =>
    (file.resources.filter (·.resourceType = "data-product")).flatMap (validateDataProduct file.path)

/-- `validate_offline`, which does not fail. -/
def validateOffline (files : List (ParsedFile F)) : ValidationResult where
  valid := (offlineErrors files).isEmpty
  errors := offlineErrors files
  warnings := files.flatMap fun file => file.resources.flatMap imageWarning

/-! ## What the compiler asks for -/

/-- The types whose IRIs belong to the cluster. -/
def clusterTypes : List String := ["product", "group", "capability", "data-domain"]

/-- The types whose IRIs belong to a product. -/
def productTypes : List String :=
  ["container", "volume", "feature-flag", "binary", "rdf-store", "event-store", "config", "ingress",
    "ontology", "inference-rule", "event-subscription", "role", "scope", "m2m-permission", "data-product"]

variable {resource : ResourceDecl F} {builder : IriBuilder}

theorem productIri_isSome {label : String} {iri : String → String} :
    (∃ i, productIri resource label iri = .ok i) ↔ resource.product.isSome := by
  rw [productIri]
  cases resource.product with
  | none => simp
  | some product => simp

/-- A resource has an IRI when its type is known, and its product if the type needs one. -/
theorem resourceIri_isSome :
    (∃ iri, resourceIri builder resource = .ok iri) ↔
      resource.resourceType ∈ clusterTypes ∨
        resource.resourceType ∈ productTypes ∧ resource.product.isSome := by
  unfold resourceIri
  dsimp only
  split
  case h_20 =>
    constructor
    · rintro ⟨iri, h⟩
      cases h
    · intro h
      simp only [clusterTypes, productTypes, List.mem_cons, List.not_mem_nil, or_false] at h
      rcases h with h | ⟨h, -⟩
      · tauto
      · tauto
  all_goals
    next heq =>
      rw [heq]
      simp [productIri_isSome, clusterTypes, productTypes]

theorem product_mem_requiredFields : ∀ t ∈ productTypes, "product" ∈ requiredFields t := by
  decide +kernel

/-- The compiler can give the resource an IRI if its product is there: the type is known, and the product
of a resource that belongs to one is a string. -/
def Compilable (resource : ResourceDecl F) : Prop :=
  (resource.resourceType ∈ clusterTypes ∨ resource.resourceType ∈ productTypes) ∧
    (resource.resourceType ∈ productTypes → ∀ p, resource.properties.find? (·.key = "product") = some p →
      p.value.asString.isSome)

theorem hasKey_iff {props : Properties F} {key : String} :
    hasKey props key = true ↔ (props.find? (·.key = key)).isSome := by
  rw [hasKey, List.find?_isSome, List.any_eq_true]

/-- A valid file has the properties that its types require. -/
theorem hasKey_of_valid {files : List (ParsedFile F)} (h : (validateOffline files).valid = true)
    {file : ParsedFile F} (hfile : file ∈ files) (hresource : resource ∈ file.resources)
    {field : String} (hfield : field ∈ requiredFields resource.resourceType) :
    hasKey resource.properties field = true := by
  have hnil : offlineErrors files = [] := List.isEmpty_iff.mp h
  rw [offlineErrors, List.append_eq_nil_iff, List.flatMap_eq_nil_iff] at hnil
  have hall := List.append_eq_nil_iff.mp
    (List.flatMap_eq_nil_iff.mp (hnil.1 file hfile) resource hresource)
  have hmissing := List.filter_eq_nil_iff.mp (List.map_eq_nil_iff.mp hall.1) field hfield
  simpa using hmissing

/-- A valid resource has an IRI exactly when it is compilable. -/
theorem resourceIri_isSome_iff_compilable
    (hrequired : ∀ field ∈ requiredFields resource.resourceType, hasKey resource.properties field = true) :
    (∃ iri, resourceIri builder resource = .ok iri) ↔ Compilable resource := by
  rw [resourceIri_isSome, Compilable]
  by_cases hproduct : resource.resourceType ∈ productTypes
  · -- the product is there, so that it only has to be a string
    have hnotCluster : resource.resourceType ∉ clusterTypes := fun h =>
      (by decide +kernel : ∀ t ∈ productTypes, t ∉ clusterTypes) _ hproduct h
    obtain ⟨p, hp⟩ := Option.isSome_iff_exists.mp
      (hasKey_iff.mp (hrequired _ (product_mem_requiredFields _ hproduct)))
    have hvalue : resource.product = p.value.asString := by rw [ResourceDecl.product, hp, Option.bind_some]
    simp [hproduct, hnotCluster, hvalue, hp]
  · simp [hproduct]

/-- A file is compiled when all its resources have IRIs. -/
theorem compile_isSome {std : FloatEnv F} {file : ParsedFile F} :
    (∃ result, compile std builder file = .ok result) ↔
      ∀ resource ∈ file.resources, ∃ iri, resourceIri builder resource = .ok iri := by
  constructor
  · rintro ⟨result, hcompile⟩ resource hmem
    obtain ⟨iri, hiri, -⟩ := mem_lines hcompile hmem
    exact ⟨iri, hiri⟩
  · intro h
    choose! iri hiri using h
    refine ⟨⟨turtleHeader ++ (List.zipWith (compileResource std) file.resources
      (file.resources.map iri)).flatten, file.resources.map iri⟩, compile_eq_ok.mpr ⟨?_, rfl⟩⟩
    rw [List.forall₂_map_right_iff, List.forall₂_same]
    exact hiri

/-- **What validation leaves to the compiler.** Files that are valid are all compiled exactly when the types
of their resources are known, and no resource that belongs to a product names it by something else than a
string. -/
theorem compiles_iff {std : FloatEnv F} {builder : IriBuilder} {files : List (ParsedFile F)}
    (hvalid : (validateOffline files).valid = true) :
    (∀ file ∈ files, ∃ result, compile std builder file = .ok result) ↔
      ∀ file ∈ files, ∀ resource ∈ file.resources, Compilable resource := by
  refine forall₂_congr fun file hfile => compile_isSome.trans (forall₂_congr fun resource hresource => ?_)
  exact resourceIri_isSome_iff_compilable fun field hfield =>
    hasKey_of_valid hvalid hfile hresource hfield

/-! ## A product that is not a string -/

/-- A product and a config of it. -/
def shopFile : ParsedFile ℤ where
  path := "shop.picloud"
  resources := [⟨"product", "shop", [⟨"version", .string "1", 2⟩], 1⟩,
    ⟨"config", "flags", [⟨"product", .string "shop", 5⟩], 4⟩]

/-- The product and its config are valid and compiled. -/
theorem compiles_shopFile :
    (validateOffline [shopFile]).valid = true ∧
      ∀ file ∈ [shopFile], ∃ result, compile sampleFloats ⟨"picloud.local"⟩ file = .ok result := by
  have hvalid : (validateOffline [shopFile]).valid = true := by decide +kernel
  refine ⟨hvalid, (compiles_iff hvalid).mpr fun file hfile resource hresource => ?_⟩
  cases List.mem_singleton.mp hfile
  rcases List.mem_pair.mp hresource with rfl | rfl
  · exact ⟨Or.inl (by decide +kernel), fun h => absurd h (by decide +kernel)⟩
  · refine ⟨Or.inr (by decide +kernel), fun _ p hp => ?_⟩
    cases hp
    rfl

/-- A config whose product is no string. -/
def configOfTrue : String := "config \"flags\" \x7b\n  product = true\n\x7d\n"

/-- **The config is valid, and cannot be compiled.** -/
theorem not_compiles_configOfTrue :
    ∃ file, parse sampleSurface configOfTrue "flags.picloud" = .ok file ∧
      (validateOffline [file]).valid = true ∧
      ¬ ∃ result, compile sampleFloats ⟨"picloud.local"⟩ file = .ok result := by
  have hrun : (parse sampleSurface configOfTrue "flags.picloud").map (fun file =>
      ((validateOffline [file]).valid,
        (compile sampleFloats ⟨"picloud.local"⟩ file).map CompileResult.declaredIris)) =
      .ok (true, .error "Config 'flags' missing required property: product") := by decide +kernel
  cases hparse : parse sampleSurface configOfTrue "flags.picloud" with
  | error e =>
    rw [hparse] at hrun
    cases hrun
  | ok file =>
    rw [hparse] at hrun
    obtain ⟨hvalid, hcompile⟩ := Prod.mk.inj (Except.ok.inj hrun)
    refine ⟨file, rfl, hvalid, ?_⟩
    rintro ⟨result, hresult⟩
    rw [hresult] at hcompile
    cases hcompile

end Picloud
