import Picloud.Compiler.Parser
import Picloud.Lib.Assoc
import Picloud.Lib.Texts

/-!
# The resource builder

A builder collects values for the properties of a resource of a known type and renders them as a
`.picloud` file: a line for a value or a secret, one for each item of a list and for each pair, and a block
for nested properties, in the order of the keys.
-/

namespace Picloud

open Lib

/-- `BuilderValue`, with the entries of a map in any order. -/
inductive BuilderValue where
  | single (value : String)
  | secret (name : String)
  | list (items : List String)
  | pairs (pairs : List (String × String))
  | block (props : List (String × BuilderValue))

/-- The maps in the value have each key once. -/
inductive BuilderValue.Keyed : BuilderValue → Prop
  | single (value : String) : Keyed (.single value)
  | secret (name : String) : Keyed (.secret name)
  | list (items : List String) : Keyed (.list items)
  | pairs (pairs : List (String × String)) : Keyed (.pairs pairs)
  | block {props : List (String × BuilderValue)} (hkeys : (Assoc.keys props).Nodup)
      (h : ∀ e ∈ props, Keyed e.2) : Keyed (.block props)

/-- `KNOWN_RESOURCE_TYPES`. -/
def knownResourceTypes : List String :=
  ["product", "container", "binary", "volume", "feature-flag", "config", "inference-rule", "event-store",
    "rdf-store", "ingress", "group", "event-subscription", "ontology", "role", "scope", "m2m-permission"]

/-- `ResourceBuilder`. -/
structure ResourceBuilder where
  resourceType : String
  name : Option String
  properties : List (String × BuilderValue)
  known : resourceType ∈ knownResourceTypes
  keyed : (BuilderValue.block properties).Keyed

namespace ResourceBuilder

/-- `ResourceBuilder::new`. -/
def new (resourceType : String) : Except String ResourceBuilder :=
  if h : resourceType ∈ knownResourceTypes then
    .ok ⟨resourceType, none, [], h, .block List.nodup_nil fun _ he => absurd he List.not_mem_nil⟩
  else
    .error ("Unknown resource type '" ++ resourceType ++ "'. Valid types: " ++
      ", ".intercalate knownResourceTypes)

variable (b : ResourceBuilder)

/-- `ResourceBuilder::name`. -/
def withName (name : String) : ResourceBuilder := { b with name := some name }

/-- `insert` into the properties. -/
def insert (key : String) (value : BuilderValue) (h : value.Keyed) : ResourceBuilder where
  resourceType := b.resourceType
  name := b.name
  properties := Assoc.set b.properties key value
  known := b.known
  keyed := by
    cases b.keyed with
    | block hkeys hvalues =>
      refine .block (Assoc.nodup_keys_set hkeys key value) fun e he => ?_
      rcases Assoc.mem_set.mp he with rfl | ⟨he, -⟩
      · exact h
      · exact hvalues e he

/-- `ResourceBuilder::property`. -/
def property (key value : String) : ResourceBuilder := b.insert key (.single value) (.single value)

/-- `ResourceBuilder::secret`. -/
def secret (key secretName : String) : ResourceBuilder :=
  b.insert key (.secret secretName) (.secret secretName)

/-- `ResourceBuilder::list`. -/
def list (key : String) (values : List String) : ResourceBuilder :=
  b.insert key (.list values) (.list values)

/-- `ResourceBuilder::pairs`. -/
def pairs (key : String) (pairs : List (String × String)) : ResourceBuilder :=
  b.insert key (.pairs pairs) (.pairs pairs)

end ResourceBuilder

/-! ## Rendering -/

/-- The entries of a map in the order of the keys. -/
def sortedEntries {V : Type} (m : Assoc String V) : List (String × V) :=
  (sortTexts (Assoc.keys m)).filterMap fun k => (Assoc.get m k).map fun v => (k, v)

/-- The indentation of a line. -/
def pad (indent : ℕ) : String := String.ofList (List.replicate (2 * indent) ' ')

/-- The line of a value. -/
def valueLine (indent : ℕ) (key value : String) : String :=
  pad indent ++ key ++ "  = \"" ++ value ++ "\""

/-- The line of a secret. -/
def secretLine (indent : ℕ) (key name : String) : String :=
  pad indent ++ key ++ "  = secret(\"" ++ name ++ "\")"

/-- The line of a pair. -/
def pairLine (indent : ℕ) (key : String) (pair : String × String) : String :=
  pad indent ++ key ++ " \x7b key = \"" ++ pair.1 ++ "\"; value = \"" ++ pair.2 ++ "\" \x7d"

mutual

/-- `render_property`. -/
def renderProperty (indent : ℕ) (key : String) : BuilderValue → List String
  | .single value => [valueLine indent key value]
  | .secret name => [secretLine indent key name]
  | .list items => items.map (valueLine indent key)
  | .pairs pairs => pairs.map (pairLine indent key)
  | .block props =>
    (pad indent ++ key ++ " \x7b") ::
      (sortedEntries (renderEach (indent + 1) props)).flatMap Prod.snd ++ [pad indent ++ "\x7d"]

/-- The lines of each property. -/
def renderEach (indent : ℕ) : List (String × BuilderValue) → List (String × List String)
  | [] => []
  | (key, value) :: props => (key, renderProperty indent key value) :: renderEach indent props

end

/-- The lines of properties, in the order of their keys. -/
def renderProperties (indent : ℕ) (props : List (String × BuilderValue)) : List String :=
  (sortedEntries (renderEach indent props)).flatMap Prod.snd

/-- `ResourceBuilder::render`. -/
def ResourceBuilder.render (b : ResourceBuilder) : Except String String :=
  match b.name with
  | some name => .ok ("\n".intercalate
      ((b.resourceType ++ " \"" ++ name ++ "\" \x7b") :: renderProperties 1 b.properties ++ ["\x7d", ""]))
  | none => .error "Resource name is required"

/-! ## What is rendered -/

section Sorted

variable {V W : Type} {m : Assoc String V}

theorem mem_of_mem_sortedEntries {e : String × V} (h : e ∈ sortedEntries m) : e ∈ m := by
  obtain ⟨k, -, hk⟩ := List.mem_filterMap.mp h
  obtain ⟨v, hv, rfl⟩ := Option.map_eq_some_iff.mp hk
  exact Assoc.mem_of_get hv

theorem mem_sortedEntries (hkeys : (Assoc.keys m).Nodup) {e : String × V} (h : e ∈ m) :
    e ∈ sortedEntries m := by
  refine List.mem_filterMap.mpr ⟨e.1, mem_sortTexts.mpr (List.mem_map_of_mem h), ?_⟩
  rw [Assoc.get_of_mem hkeys h]
  rfl

theorem map_fst_sortedEntries (m : Assoc String V) :
    (sortedEntries m).map Prod.fst = sortTexts (Assoc.keys m) := by
  have hself : ∀ k ∈ sortTexts (Assoc.keys m),
      ((Assoc.get m k).map fun v => (k, v)).map Prod.fst = some k := by
    intro k hk
    obtain ⟨e, he, rfl⟩ := List.mem_map.mp (mem_sortTexts.mp hk)
    have hfound : (m.find? (·.1 = e.1)).isSome := List.find?_isSome.mpr ⟨e, he, by simp⟩
    obtain ⟨e', he'⟩ := Option.isSome_iff_exists.mp hfound
    rw [Assoc.get, he']
    rfl
  rw [sortedEntries, List.map_filterMap, List.filterMap_congr hself, List.filterMap_some]

theorem nodup_keys_sortedEntries (hkeys : (Assoc.keys m).Nodup) :
    ((sortedEntries m).map Prod.fst).Nodup := by
  rw [map_fst_sortedEntries]
  exact (List.perm_insertionSort _ _).nodup_iff.mpr hkeys

/-- The values of a map may be replaced before or after sorting. -/
theorem sortedEntries_map (m : Assoc String V) (f : String × V → W) :
    sortedEntries (m.map fun e => (e.1, f e)) = (sortedEntries m).map fun e => (e.1, f e) := by
  have hkeys : Assoc.keys (m.map fun e => (e.1, f e)) = Assoc.keys m := by simp [Assoc.keys]
  have hget : ∀ k, Assoc.get (m.map fun e => (e.1, f e)) k =
      (Assoc.get m k).map fun v => f (k, v) := by
    intro k
    induction m with
    | nil => rfl
    | cons e m ih =>
      by_cases hk : e.1 = k
      · subst hk
        simp [Assoc.get]
      · simpa [Assoc.get, hk] using ih (by simp [Assoc.keys])
  rw [sortedEntries, sortedEntries, hkeys, List.map_filterMap]
  refine List.filterMap_congr fun k _ => ?_
  rw [hget, Option.map_map, Option.map_map]
  rfl

end Sorted

theorem renderEach_eq (indent : ℕ) (props : List (String × BuilderValue)) :
    renderEach indent props = props.map fun e => (e.1, renderProperty indent e.1 e.2) := by
  induction props with
  | nil => rfl
  | cons e props ih =>
    rw [renderEach, ih]
    rfl

/-- The lines of each property, in the order of the keys. -/
theorem renderProperties_eq (indent : ℕ) (props : List (String × BuilderValue)) :
    renderProperties indent props =
      (sortedEntries props).flatMap fun e => renderProperty indent e.1 e.2 := by
  rw [renderProperties, renderEach_eq, sortedEntries_map, List.flatMap_map]

end Picloud
