import Picloud.Domain.Event
import Mathlib.Data.List.DropRight

/-!
# Reading JSON payloads, and building IRIs

Reference: the accessors of `serde_json::Value` and `picloud-domain/src/iri.rs`. Indexing a value
that is no object, or an object without the key, gives `null`, so a payload of any shape can be read.
-/

namespace Picloud

namespace Json

/-- `Value::get` at a key. -/
def get? (j : Json) (key : String) : Option Json :=
  match j with
  | .object fields => fields.lookup key
  | _ => none

/-- `value[key]`. -/
def index (j : Json) (key : String) : Json := (j.get? key).getD .null

/-- `Value::as_str`. -/
def asStr : Json → Option String
  | .string s => some s
  | _ => none

/-- `Value::as_bool`. -/
def asBool : Json → Option Bool
  | .bool b => some b
  | _ => none

/-- `Value::as_u64`. -/
def asU64 : Json → Option ℕ
  | .number (.posInt n) => some n.toNat
  | _ => none

/-- `Value::as_array`. -/
def asArray : Json → Option (List Json)
  | .array items => some items
  | _ => none

/-- `Value::as_object`. -/
def asObject : Json → Option (List (String × Json))
  | .object fields => some fields
  | _ => none

end Json

namespace EventEnvelope

/-- `event.payload[key].as_str()`. -/
def str (event : EventEnvelope) (key : String) : Option String := (event.payload.index key).asStr

/-- `event.payload[key].as_str().unwrap_or(default)`. -/
def strD (event : EventEnvelope) (key fallback : String) : String := (event.str key).getD fallback

/-- `event.payload[key].as_str().unwrap_or(event.source.as_str())`. -/
def iriOrSource (event : EventEnvelope) (key : String) : String :=
  (event.str key).getD event.source.value

end EventEnvelope

/-! ## IRIs -/

/-- `IriBuilder`: the cluster domain. -/
structure IriBuilder where
  domain : String
deriving DecidableEq

namespace IriBuilder

variable (b : IriBuilder)

/-- `IriBuilder::cluster_root`. -/
def clusterRoot : String := "https://" ++ b.domain ++ "/"

/-- `IriBuilder::product`. -/
def product (productName : String) : String := "https://" ++ b.domain ++ "/products/" ++ productName

/-- `IriBuilder::node`. -/
def node (nodeName : String) : String := "https://" ++ b.domain ++ "/nodes/" ++ nodeName

/-- `IriBuilder::resource`. -/
def resource (productName resourceType resourceName : String) : String :=
  b.product productName ++ "/" ++ resourceType ++ "/" ++ resourceName

/-- `IriBuilder::product_graph`. -/
def productGraph (productName : String) : String := b.product productName ++ "/graph"

/-- `IriBuilder::product_ontology_versioned`. -/
def productOntologyVersioned (productName version : String) : String :=
  b.product productName ++ "/ontology/" ++ version

/-- `IriBuilder::product_sparql`. -/
def productSparql (productName : String) : String := b.product productName ++ "/sparql"

/-- `IriBuilder::product_events`. -/
def productEvents (productName : String) : String := b.product productName ++ "/events"

/-- `IriBuilder::product_config`. -/
def productConfig (productName : String) : String := b.product productName ++ "/config"

/-- `IriBuilder::feature_flag`. -/
def featureFlag (productName flagName : String) : String :=
  b.product productName ++ "/flags/" ++ flagName

/-- `IriBuilder::group`. -/
def group (groupName : String) : String := "https://" ++ b.domain ++ "/groups/" ++ groupName

/-- `IriBuilder::cluster_resource`. -/
def clusterResource (resourceType name : String) : String :=
  "https://" ++ b.domain ++ "/" ++ resourceType ++ "/" ++ name

/-- `IriBuilder::inference_rule`. -/
def inferenceRule (ruleName : String) : String :=
  "https://" ++ b.domain ++ "/inference-rules/" ++ ruleName

/-- `IriBuilder::event_schema`. -/
def eventSchema (eventType : String) (version : ℕ) : String :=
  "https://" ++ b.domain ++ "/schemas/events/" ++ eventType ++ "/v" ++ toString version

/-- `IriBuilder::replay_graph`. -/
def replayGraph (replayId : String) : String := "https://" ++ b.domain ++ "/replay/" ++ replayId

/-- `cluster_root().as_str().trim_end_matches('/')`. -/
def base : String := String.ofList (b.clusterRoot.toList.rdropWhile (· = '/'))

end IriBuilder

/-- `s.rsplit('/').next()`: what follows the last slash. -/
def lastSegment (s : String) : String := String.ofList (s.toList.rtakeWhile (· ≠ '/'))

theorem lastSegment_append (s : String) {name : String} (h : '/' ∉ name.toList) :
    lastSegment (s ++ "/" ++ name) = name := by
  have hname : ∀ c ∈ name.toList.reverse, decide (c ≠ '/') = true := by
    intro c hc
    simpa using fun heq : c = '/' => h (heq ▸ List.mem_reverse.mp hc)
  have hlist : (s ++ "/" ++ name).toList = s.toList ++ ['/'] ++ name.toList := by simp
  rw [lastSegment, hlist, List.rtakeWhile, List.reverse_append,
    List.takeWhile_append_of_pos hname]
  simp

/-- `s.split_once('/')`. -/
def splitOnce (s : String) : Option (String × String) :=
  if '/' ∈ s.toList then
    some (String.ofList (s.toList.takeWhile (· ≠ '/')),
      String.ofList (s.toList.dropWhile (· ≠ '/')).tail)
  else none

-- an infix is decided as the core library does it
attribute [instance (2000)] List.instDecidableIsInfixOfDecidableEq

/-- `s.contains(part)`. -/
def containsText (s part : String) : Bool := decide (part.toList <:+: s.toList)

end Picloud
