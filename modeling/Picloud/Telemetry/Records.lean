import Picloud.Domain.Event
import Picloud.Lib.Assoc
import Picloud.Lib.Calendar
import Picloud.Lib.JsonLines

/-!
# Telemetry records and their stores

Reference: `ParquetTelemetryStore` of `picloud-http/src/parquet_store.rs`, `JsonlTelemetryStore` of
`picloud-http/src/telemetry_store.rs` and the records of `picloud-domain/src/events.rs`.

Spans and metrics are stored in the same way, so a store is written over a `Signal`: a kind of record
with its time, its column format and its filter. Times are nanoseconds since 1970; the file system
takes every write.
-/

namespace Picloud

open Lib

/-! ## Records -/

/-- `SpanRecord`. -/
structure SpanRecord where
  traceId : String
  spanId : String
  parentSpanId : Option String
  operationName : String
  serviceName : String
  startTime : ℤ
  endTime : ℤ
  durationMs : UInt64
  status : String
  attributes : Json
deriving DecidableEq

/-- `MetricRecord`; the value is the bit pattern of an `f64`. -/
structure MetricRecord where
  name : String
  value : UInt64
  unit : String
  metricType : String
  serviceName : String
  timestamp : ℤ
  attributes : Json
deriving DecidableEq

/-- `TelemetryFilter`. -/
structure TelemetryFilter where
  serviceName : Option String := none
  operationName : Option String := none
  metricName : Option String := none
  minDurationMs : Option UInt64 := none
deriving DecidableEq

/-- The filter of `query_spans`, in both stores. -/
def SpanRecord.matches (start stop : ℤ) (filter : TelemetryFilter) (s : SpanRecord) : Bool :=
  start ≤ s.startTime && s.startTime ≤ stop && filter.serviceName.all (s.serviceName = ·) &&
    filter.operationName.all (s.operationName = ·) && filter.minDurationMs.all (· ≤ s.durationMs)

/-- The filter of `query_metrics`, in both stores. -/
def MetricRecord.matches (start stop : ℤ) (filter : TelemetryFilter) (m : MetricRecord) : Bool :=
  start ≤ m.timestamp && m.timestamp ≤ stop && filter.serviceName.all (m.serviceName = ·) &&
    filter.metricName.all (m.name = ·)

/-! ## Columns -/

/-- A row of `traces_schema`. -/
structure SpanRow where
  traceId : String
  spanId : String
  parentSpanId : Option String
  operationName : String
  serviceName : String
  startTime : String
  endTime : String
  durationMs : UInt64
  status : String
  attributes : String
deriving DecidableEq

/-- A row of `metrics_schema`. -/
structure MetricRow where
  name : String
  value : UInt64
  unit : String
  metricType : String
  serviceName : String
  timestamp : String
  attributes : String
deriving DecidableEq

/-- The Parquet writer and reader at one kind of row. -/
structure ParquetCodec (ρ : Type) where
  /-- The contents of a file. -/
  Content : Type
  encode : List ρ → Content
  decode : Content → Except String (List ρ)
  /-- What was written is read. -/
  decode_encode : ∀ rows, decode (encode rows) = .ok rows

/-- What the stores take from their libraries. -/
structure TelemetryEnv where
  /-- `to_rfc3339`. -/
  rfc3339 : ℤ → String
  /-- `DateTime::parse_from_rfc3339`. -/
  parseRfc3339 : String → Option ℤ
  /-- `Utc::now()` of a reader that cannot parse a time. -/
  now : ℤ
  /-- `serde_json::to_string` of a value. -/
  jsonText : Json → String
  /-- `serde_json::from_str` to a value. -/
  parseJson : String → Option Json
  spanParquet : ParquetCodec SpanRow
  metricParquet : ParquetCodec MetricRow
  spanJson : RoundTripCodec SpanRecord
  metricJson : RoundTripCodec MetricRecord
  /-- The order in which the partitions of a batch are found in a hash map. -/
  iterate : List String → List String
  /-- Every partition is found, once. -/
  iterate_perm : ∀ l, (iterate l).Perm l

namespace TelemetryEnv

variable (env : TelemetryEnv)

/-- A row of `spans_to_record_batch`. -/
def spanRow (s : SpanRecord) : SpanRow where
  traceId := s.traceId
  spanId := s.spanId
  parentSpanId := s.parentSpanId
  operationName := s.operationName
  serviceName := s.serviceName
  startTime := env.rfc3339 s.startTime
  endTime := env.rfc3339 s.endTime
  durationMs := s.durationMs
  status := s.status
  attributes := env.jsonText s.attributes

/-- A record of `read_spans_from_parquet`. -/
def spanOfRow (r : SpanRow) : SpanRecord where
  traceId := r.traceId
  spanId := r.spanId
  parentSpanId := r.parentSpanId
  operationName := r.operationName
  serviceName := r.serviceName
  startTime := (env.parseRfc3339 r.startTime).getD env.now
  endTime := (env.parseRfc3339 r.endTime).getD env.now
  durationMs := r.durationMs
  status := r.status
  attributes := (env.parseJson r.attributes).getD (.object [])

/-- A row of `metrics_to_record_batch`. -/
def metricRow (m : MetricRecord) : MetricRow where
  name := m.name
  value := m.value
  unit := m.unit
  metricType := m.metricType
  serviceName := m.serviceName
  timestamp := env.rfc3339 m.timestamp
  attributes := env.jsonText m.attributes

/-- A record of `read_metrics_from_parquet`. -/
def metricOfRow (r : MetricRow) : MetricRecord where
  name := r.name
  value := r.value
  unit := r.unit
  metricType := r.metricType
  serviceName := r.serviceName
  timestamp := (env.parseRfc3339 r.timestamp).getD env.now
  attributes := (env.parseJson r.attributes).getD (.object [])

end TelemetryEnv

/-- A kind of record, as the stores use it. -/
structure Signal where
  Record : Type
  Row : Type
  time : Record → ℤ
  row : Record → Row
  ofRow : Row → Record
  parquet : ParquetCodec Row
  json : RoundTripCodec Record
  accepts : ℤ → ℤ → TelemetryFilter → Record → Bool

namespace TelemetryEnv

variable (env : TelemetryEnv)

/-- Spans, by their start. -/
def spans : Signal where
  Record := SpanRecord
  Row := SpanRow
  time := SpanRecord.startTime
  row := env.spanRow
  ofRow := env.spanOfRow
  parquet := env.spanParquet
  json := env.spanJson
  accepts := SpanRecord.matches

/-- Metrics. -/
def metrics : Signal where
  Record := MetricRecord
  Row := MetricRow
  time := MetricRecord.timestamp
  row := env.metricRow
  ofRow := env.metricOfRow
  parquet := env.metricParquet
  json := env.metricJson
  accepts := MetricRecord.matches

end TelemetryEnv

/-! ## Hours -/

/-- An hour in nanoseconds. -/
def hourNanos : ℤ := 3600000000000

/-- The hours from the start of the year 0 to 1970. -/
def epochHours : ℤ := 719528 * 24

/-- The hour of a time, from the start of the year 0. -/
def hourOf (t : ℤ) : ℤ := t / hourNanos + epochHours

/-- The time is in the years 0 to 9999. -/
def InYears (t : ℤ) : Prop := 0 ≤ hourOf t ∧ hourOf t < 24 * daysOfCalendar

/-- `format("%Y-%m-%dT%H")`, for the years 0 to 9999. -/
def partitionKey (t : ℤ) : String := String.ofList (hourText 'T' (hourOf t).toNat)

/-- `format("%Y-%m-%d-%H")`, for the years 0 to 9999. -/
def hourKey (t : ℤ) : String := String.ofList (hourText '-' (hourOf t).toNat)

end Picloud
