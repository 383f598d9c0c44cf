import Mathlib.Data.List.Basic
import Mathlib.Data.Int.Notation

/-!
# Events of the platform log

Reference: `picloud-domain/src/events.rs`, `traits.rs` and `error.rs`.

The envelope is kept whole: the log stores it, broadcasts it and writes it to disk as one value.
Identifiers are 128-bit words, timestamps are nanoseconds since the epoch, and the payload is an
arbitrary JSON value.
-/

namespace Picloud

/-- `serde_json::Number`; a float is kept as its IEEE bit pattern. -/
inductive JsonNumber where
  | posInt (n : UInt64)
  | negInt (n : Int64)
  | float (bits : UInt64)
deriving DecidableEq

/-- `serde_json::Value`. -/
inductive Json where
  | null
  | bool (b : Bool)
  | number (n : JsonNumber)
  | string (s : String)
  | array (items : List Json)
  | object (fields : List (String × Json))

mutual

/-- Equality test on JSON values, by the nesting of arrays and objects. -/
def Json.decEq : (a b : Json) → Decidable (a = b)
  | .null, .null => isTrue rfl
  | .bool a, .bool b => decidable_of_iff (a = b) (by simp)
  | .number a, .number b => decidable_of_iff (a = b) (by simp)
  | .string a, .string b => decidable_of_iff (a = b) (by simp)
  | .array a, .array b =>
    have := Json.decEqItems a b
    decidable_of_iff (a = b) (by simp)
  | .object a, .object b =>
    have := Json.decEqFields a b
    decidable_of_iff (a = b) (by simp)
  | .null, .bool _ | .null, .number _ | .null, .string _ | .null, .array _ | .null, .object _
  | .bool _, .null | .bool _, .number _ | .bool _, .string _ | .bool _, .array _
  | .bool _, .object _ | .number _, .null | .number _, .bool _ | .number _, .string _
  | .number _, .array _ | .number _, .object _ | .string _, .null | .string _, .bool _
  | .string _, .number _ | .string _, .array _ | .string _, .object _ | .array _, .null
  | .array _, .bool _ | .array _, .number _ | .array _, .string _ | .array _, .object _
  | .object _, .null | .object _, .bool _ | .object _, .number _ | .object _, .string _
  | .object _, .array _ => isFalse (by simp)

/-- Equality test on the items of arrays. -/
def Json.decEqItems : (a b : List Json) → Decidable (a = b)
  | [], [] => isTrue rfl
  | [], _ :: _ | _ :: _, [] => isFalse (by simp)
  | x :: xs, y :: ys =>
    have := Json.decEq x y
    have := Json.decEqItems xs ys
    decidable_of_iff (x = y ∧ xs = ys) (by simp)

/-- Equality test on the fields of objects. -/
def Json.decEqFields : (a b : List (String × Json)) → Decidable (a = b)
  | [], [] => isTrue rfl
  | [], _ :: _ | _ :: _, [] => isFalse (by simp)
  | (k, x) :: xs, (l, y) :: ys =>
    have := Json.decEq x y
    have := Json.decEqFields xs ys
    decidable_of_iff ((k = l ∧ x = y) ∧ xs = ys) (by simp)

end

instance : DecidableEq Json := Json.decEq

/-- `uuid::Uuid`. -/
abbrev Uuid := BitVec 128

/-- `ResourceIri`: an IRI in its textual form. -/
structure ResourceIri where
  value : String
deriving DecidableEq

/-- `ReplayMetadata`: marks an event that was re-emitted by a replay. -/
structure ReplayMetadata where
  isReplay : Bool
  replayId : Uuid
  originalTimestamp : ℤ
  replayedAt : ℤ
deriving DecidableEq

/-- `EventEnvelope`: the envelope that wraps every event of the platform log. -/
structure EventEnvelope where
  id : Uuid
  schema : ResourceIri
  eventType : String
  timestamp : ℤ
  source : ResourceIri
  product : Option String
  correlationId : Uuid
  idempotencyKey : Option String
  traceparent : Option String
  replay : Option ReplayMetadata
  payload : Json
deriving DecidableEq

/-- `EventEnvelope::new`, with the identifier and the clock reading it draws passed in. -/
def EventEnvelope.new (id : Uuid) (now : ℤ) (schema : ResourceIri) (eventType : String)
    (source : ResourceIri) (product : Option String) (correlationId : Uuid) (payload : Json) :
    EventEnvelope where
  id := id
  schema := schema
  eventType := eventType
  timestamp := now
  source := source
  product := product
  correlationId := correlationId
  idempotencyKey := none
  traceparent := none
  replay := none
  payload := payload

/-- `EventEnvelope::with_idempotency_key`. -/
def EventEnvelope.withIdempotencyKey (e : EventEnvelope) (key : String) : EventEnvelope :=
  { e with idempotencyKey := some key }

/-- `EventFilter`: the criteria of a subscription. -/
structure EventFilter where
  correlationId : Option Uuid := none
  product : Option String := none
  eventTypes : List String := []
deriving DecidableEq

/-- `PiCloudError`, as far as the event log raises it: an internal error with its text. -/
inductive PiCloudError where
  | internal (message : String)
deriving DecidableEq

/-- `to_string` of an error. -/
def PiCloudError.display : PiCloudError → String
  | .internal message => "Internal error: " ++ message

end Picloud
