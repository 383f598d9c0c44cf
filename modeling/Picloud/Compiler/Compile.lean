import Picloud.Compiler.Parser
import Picloud.Domain.Payload

/-!
# The compiler from `.picloud` files to Turtle

Each resource has an IRI, which depends on its type, its name and its product, and each nested block one
that continues the IRI of its parent: with the key for a block of its own, and with the key in the plural
and the block's name or number for a block of a collection. `compile` writes a triple for every property,
and one that points to every block.
-/

namespace Picloud

variable {F : Type}

/-- What the compiler takes from the standard library: the conversions of an `f64`, its comparison and its
text. -/
structure FloatEnv (F : Type) where
  toInt : F → ℤ
  ofInt : ℤ → F
  eq : F → F → Bool
  display : F → String

/-! ## Resources -/

/-- The text of a string value. -/
def PropertyValue.asString : PropertyValue F → Option String
  | .string text => some text
  | _ => none

/-- The product of a resource, when it is a string. -/
def ResourceDecl.product (resource : ResourceDecl F) : Option String :=
  (resource.properties.find? (·.key = "product")).bind (·.value.asString)

/-- The IRI of a resource of a product; `label` is the type in the error. -/
def productIri (resource : ResourceDecl F) (label : String) (iri : String → String) :
    Except String String :=
  match resource.product with
  | some product => .ok (iri product)
  | none => .error (label ++ " '" ++ resource.name ++ "' missing required property: product")

/-- `resource_iri`. -/
def resourceIri (builder : IriBuilder) (resource : ResourceDecl F) : Except String String :=
  let ofType (label resourceType : String) : Except String String :=
    productIri resource label fun product => builder.resource product resourceType resource.name
  match resource.resourceType with
  | "product" => .ok (builder.product resource.name)
  | "container" => ofType "Container" "containers"
  | "volume" => ofType "Volume" "volumes"
  | "feature-flag" =>
    productIri resource "FeatureFlag" fun product => builder.featureFlag product resource.name
  | "binary" => ofType "Binary" "binaries"
  | "rdf-store" => ofType "RdfStore" "rdf-stores"
  | "event-store" => ofType "EventStore" "event-stores"
  | "config" => ofType "Config" "configs"
  | "ingress" => ofType "Ingress" "ingress"
  | "ontology" => ofType "Ontology" "ontologies"
  | "inference-rule" => ofType "InferenceRule" "inference-rules"
  | "group" => .ok (builder.group resource.name)
  | "event-subscription" => ofType "EventSubscription" "event-subscriptions"
  | "role" => ofType "Role" "roles"
  | "scope" => ofType "Scope" "scopes"
  | "m2m-permission" => ofType "M2mPermission" "m2m-permissions"
  | "capability" => .ok (builder.clusterResource "capabilities" resource.name)
  | "data-domain" => .ok (builder.clusterResource "data-domains" resource.name)
  | "data-product" => ofType "DataProduct" "data-products"
  | other => .error ("Unknown resource type: '" ++ other ++ "'")

/-- `resource_rdf_type`. -/
def resourceRdfType : String → String
  | "product" => "Product"
  | "container" => "Container"
  | "volume" => "Volume"
  | "binary" => "Binary"
  | "rdf-store" => "RdfStore"
  | "event-store" => "EventStore"
  | "feature-flag" => "FeatureFlag"
  | "inference-rule" => "InferenceRule"
  | "ingress" => "Ingress"
  | "config" => "ConfigStore"
  | "ontology" => "Ontology"
  | "group" => "Group"
  | "event-subscription" => "EventSubscription"
  | "role" => "ProductRole"
  | "scope" => "ProductScope"
  | "m2m-permission" => "M2mPermission"
  | "capability" => "Capability"
  | "data-domain" => "DataDomain"
  | "data-product" => "DataProduct"
  | _ => "Resource"

/-- `is_collection_type`. -/
def isCollectionType (key : String) : Bool := key ∈ ["mount", "tag", "port", "env"]

/-- `nested_rdf_type`. -/
def nestedRdfType : String → Option String
  | "snapshots" => some "SnapshotConfig"
  | "retention" => some "SnapshotRetention"
  | "offsite" => some "OffsiteBackupConfig"
  | "mount" => some "VolumeMount"
  | "tag" => some "Tag"
  | "otel" => some "OtelConfig"
  | "resources" => some "ResourceLimits"
  | "freshness" => some "FreshnessConfig"
  | "access" => some "DataProductAccess"
  | "events" => some "CapabilityEvents"
  | _ => none

/-- The loop of `camel`; `capitalise` after a hyphen. -/
def camelFrom : Bool → List Char → List Char
  | _, [] => []
  | capitalise, c :: cs =>
    if c = '-' then camelFrom true cs
    else (if capitalise then c.toUpper else c) :: camelFrom false cs

/-- `camel`. -/
def camel (key : String) : String := String.ofList (camelFrom false key.toList)

/-! ## Lines -/

/-- A line of the `TurtleWriter`. -/
inductive TurtleLine where
  | declaration (name iri : String)
  | triple (subject predicate object : String)
  | tripleRaw (subject predicate object : String)
  | blank
deriving DecidableEq

/-- The text of a line. -/
def TurtleLine.text : TurtleLine → String
  | .declaration name iri => "@prefix " ++ name ++ ": <" ++ iri ++ "> ."
  | .triple subject predicate object =>
    (if "http".toList <+: subject.toList then "<" ++ subject ++ ">" else subject) ++ " " ++
      predicate ++ " " ++ object ++ " ."
  | .tripleRaw subject predicate object => subject ++ " " ++ predicate ++ " " ++ object ++ " ."
  | .blank => ""

/-- The predicate of a key. -/
def predicateOf (key : String) : String := "pc:" ++ camel key

/-- A text between quotes, as it is. -/
def literalOf (text : String) : String := "\"" ++ text ++ "\""

/-- The text of a number, without a decimal point when it is an integer. -/
def numberObject (std : FloatEnv F) (n : F) : String :=
  if std.eq n (std.ofInt (std.toInt n)) then toString (std.toInt n) else std.display n

/-- The name of a block of a collection, or else its number. -/
def blockKey (props : Properties F) (number : ℕ) : String :=
  ((props.find? fun p => p.key = "key" ∨ p.key = "volume" ∨ p.key = "name").bind
    (·.value.asString)).getD (toString number)

/-- The IRI of a block of its own. -/
def singletonIri (parent key : String) : String := parent ++ "/" ++ key

/-- The IRI of a block of a collection. -/
def keyedIri (parent key name : String) : String := parent ++ "/" ++ key ++ "s/" ++ name

/-- The IRI of a block that its key has alone. -/
def blockIri (parent key : String) (props : Properties F) : String :=
  if isCollectionType key then keyedIri parent key (blockKey props 0) else singletonIri parent key

/-- The lines of a block: the triple that points to it, its type, and its properties. -/
def blockLines (parent key nested : String) (body : List TurtleLine) : List TurtleLine :=
  .triple parent (predicateOf key) ("<" ++ nested ++ ">") ::
    (match nestedRdfType key with
      | some t => [.tripleRaw ("<" ++ nested ++ ">") "a" ("pc:" ++ t)]
      | none => []) ++ body ++ [.blank]

mutual

/-- `compile_property`. -/
def compileProperty (std : FloatEnv F) (parent key : String) : PropertyValue F → List TurtleLine
  | .string text => [.triple parent (predicateOf key) (literalOf text)]
  | .number n => [.triple parent (predicateOf key) (numberObject std n)]
  | .bool b => [.triple parent (predicateOf key) (toString b)]
  | .secret name => [.triple parent (predicateOf key) (literalOf ("secret:" ++ name))]
  | .block props =>
    blockLines parent key (blockIri parent key props)
      (compileProperties std (blockIri parent key props) props)
  | .blocks blocks => compileBlocks std parent key 0 blocks

/-- The loop over the properties. -/
def compileProperties (std : FloatEnv F) (parent : String) : Properties F → List TurtleLine
  | [] => []
  | ⟨key, value, _⟩ :: props => compileProperty std parent key value ++ compileProperties std parent props

/-- The loop over the blocks of a key, from a number on. -/
def compileBlocks (std : FloatEnv F) (parent key : String) (i : ℕ) :
    List (Properties F) → List TurtleLine
  | [] => []
  | props :: blocks =>
    blockLines parent key (keyedIri parent key (blockKey props i))
        (compileProperties std (keyedIri parent key (blockKey props i)) props) ++
      compileBlocks std parent key (i + 1) blocks

end

/-- `compile_resource`. -/
def compileResource (std : FloatEnv F) (resource : ResourceDecl F) (iri : String) : List TurtleLine :=
  .triple iri "a" ("pc:" ++ resourceRdfType resource.resourceType) ::
    compileProperties std iri resource.properties ++ [.blank]

/-- `CompileResult`, with the lines of the text. -/
structure CompileResult where
  lines : List TurtleLine
  declaredIris : List String

/-- `CompileResult::turtle`. -/
def CompileResult.turtle (result : CompileResult) : String :=
  "\n".intercalate (result.lines.map TurtleLine.text)

/-- The first lines of every file. -/
def turtleHeader : List TurtleLine :=
  [.declaration "pc" "https://picloud.local/ontology#",
    .declaration "xsd" "http://www.w3.org/2001/XMLSchema#"]

/-- The loop of `compile`, onto what has been written. -/
def compileResources (std : FloatEnv F) (builder : IriBuilder) :
    CompileResult → List (ResourceDecl F) → Except String CompileResult
  | result, [] => .ok result
  | result, resource :: resources =>
    match resourceIri builder resource with
    | .ok iri =>
      compileResources std builder
        ⟨result.lines ++ compileResource std resource iri, result.declaredIris ++ [iri]⟩ resources
    | .error e => .error e

/-- `compile`. -/
def compile (std : FloatEnv F) (builder : IriBuilder) (file : ParsedFile F) :
    Except String CompileResult :=
  compileResources std builder ⟨turtleHeader, []⟩ file.resources

/-! ## What is compiled -/

variable {std : FloatEnv F} {builder : IriBuilder}

variable {result : CompileResult}

/-- `compile` succeeds when every resource has an IRI, and then writes the lines of all resources. -/
theorem compileResources_eq_ok {result' : CompileResult} {resources : List (ResourceDecl F)} :
    compileResources std builder result resources = .ok result' ↔
      ∃ iris, List.Forall₂ (fun r iri => resourceIri builder r = .ok iri) resources iris ∧
        result' = ⟨result.lines ++ (List.zipWith (compileResource std) resources iris).flatten,
          result.declaredIris ++ iris⟩ := by
  induction resources generalizing result with
  | nil =>
    constructor
    · rintro h
      cases h
      exact ⟨[], .nil, by simp⟩
    · rintro ⟨iris, hall, rfl⟩
      cases hall
      simp [compileResources]
  | cons resource resources ih =>
    rw [compileResources]
    cases hiri : resourceIri builder resource with
    | error e =>
      constructor
      · rintro h
        cases h
      · rintro ⟨iris, hall, -⟩
        cases hall with
        | cons hfirst _ => cases hiri.symm.trans hfirst
    | ok iri =>
      simp only [ih]
      constructor
      · rintro ⟨iris, hall, rfl⟩
        exact ⟨iri :: iris, .cons hiri hall, by simp⟩
      · rintro ⟨iris, hall, rfl⟩
        cases hall with
        | @cons _ iri' _ iris hfirst hrest =>
          cases Except.ok.inj (hiri.symm.trans hfirst)
          exact ⟨iris, hrest, by simp⟩

/-- The resources with their IRIs. -/
theorem compile_eq_ok {file : ParsedFile F} :
    compile std builder file = .ok result ↔
      List.Forall₂ (fun r iri => resourceIri builder r = .ok iri) file.resources result.declaredIris ∧
        result.lines = turtleHeader ++
          (List.zipWith (compileResource std) file.resources result.declaredIris).flatten := by
  rw [compile, compileResources_eq_ok]
  constructor
  · rintro ⟨iris, hall, rfl⟩
    exact ⟨hall, rfl⟩
  · rintro ⟨hall, hlines⟩
    exact ⟨result.declaredIris, hall, by rw [← hlines]; rfl⟩

/-- The lines of a resource are among those of its file. -/
theorem mem_lines {file : ParsedFile F} (hcompile : compile std builder file = .ok result)
    {resource : ResourceDecl F} (hmem : resource ∈ file.resources) :
    ∃ iri, resourceIri builder resource = .ok iri ∧
      ∀ line ∈ compileResource std resource iri, line ∈ result.lines := by
  obtain ⟨hall, hlines⟩ := compile_eq_ok.mp hcompile
  obtain ⟨i, hi, rfl⟩ := List.getElem_of_mem hmem
  have hi' : i < result.declaredIris.length := hall.length_eq ▸ hi
  refine ⟨result.declaredIris[i], (List.forall₂_iff_get.mp hall).2 i hi hi', fun line hline => ?_⟩
  rw [hlines]
  refine List.mem_append_right _ (List.mem_flatten.mpr ⟨_, ?_, hline⟩)
  exact List.mem_iff_getElem.mpr
    ⟨i, by rw [List.length_zipWith]; exact Nat.lt_min.mpr ⟨hi, hi'⟩, List.getElem_zipWith⟩

/-- The conversions of the samples. -/
def sampleFloats : FloatEnv ℤ := ⟨id, id, fun a b => a = b, toString⟩

end Picloud
