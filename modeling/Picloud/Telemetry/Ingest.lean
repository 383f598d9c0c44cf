import Picloud.Lib.Ledgers
import Picloud.Lib.Pool
import Picloud.Rdf.NodeMetrics
import Mathlib.Algebra.Order.Group.Multiset
import Mathlib.Algebra.Order.Pi

/-!
# Ingested telemetry

Reference: `handle_otel_ingest` of `picloud-http/src/implementation.rs` and `parse_otlp_json`, `OtelStream` and
`OtelAggregator` of `picloud-http/src/otel.rs`.

A request publishes its records to a stream, whose collector writes them to the store in batches. The request also
writes its spans and metrics to the same store, so that they are found at once: they are stored twice.
-/

namespace Picloud

open Lib

/-! ## The body of a request -/

/-- `OtelLogRecord`. -/
structure OtelLogRecord where
  timestamp : ℤ
  severity : String
  body : String
  serviceName : String
  attributes : Json

/-- `OtelDatum`. -/
inductive OtelDatum where
  | span (s : SpanRecord)
  | metric (m : MetricRecord)
  | log (l : OtelLogRecord)

/-- What the server takes from its libraries, and how it is configured. -/
structure OtelEnv where
  /-- `serde_json::from_value`. -/
  readSpan : Json → Option SpanRecord
  readMetric : Json → Option MetricRecord
  readLog : Json → Option OtelLogRecord
  ops : MeanOps
  /-- `count as f64`. -/
  asF64 : ℕ → UInt64
  /-- Whether the handler has an `otel_stream`. -/
  otelStream : Bool
  /-- Whether the handler has a `telemetry_store`. -/
  telemetryStore : Bool

/-- `Value::pointer` of two keys. -/
def Json.pointer (j : Json) (first second : String) : Option Json := (j.get? first).bind (·.get? second)

/-- The text of the attribute with the given key. -/
def stringAttribute (attributes : Option Json) (key : String) : Option String :=
  (attributes.bind Json.asArray).bind fun attrs => attrs.findSome? fun attr =>
    if (attr.get? "key").bind Json.asStr = some key then (attr.pointer "value" "stringValue").bind Json.asStr else none

/-- A time in nanoseconds, as a text or as a number; 0 without one. -/
def unixNano (v : Option Json) : ℕ :=
  (v.bind fun v => (v.asStr.bind fun s => (parseNat s).filter (· < 2 ^ 64)).or v.asU64).getD 0

/-- The attributes of a span with those of its resource, in the order of their keys. -/
def spanAttributes (attributes : Option Json) (platformVersion : Option String) : Json :=
  let own := ((attributes.bind Json.asArray).getD []).filterMap fun attr =>
    ((attr.get? "key").bind Json.asStr).bind fun key =>
      ((attr.pointer "value" "stringValue").bind Json.asStr).map fun val => (key, Json.string val)
  let resource := platformVersion.toList.map fun ver => ("picloud.platform_version", Json.string ver)
  .object (((own ++ resource).foldl (fun attrs entry => Assoc.set attrs entry.1 entry.2) []).mergeSort
    fun a b => a.1 ≤ b.1)

/-- A span in the standard format; every `u64` of nanoseconds is a time of `chrono`. -/
def otlpSpan (serviceName : String) (platformVersion : Option String) (span : Json) : SpanRecord :=
  let text := fun key => (span.get? key).bind Json.asStr
  let start := unixNano (span.get? "startTimeUnixNano")
  let stop := unixNano (span.get? "endTimeUnixNano")
  { traceId := (text "traceId").getD ""
    spanId := (text "spanId").getD ""
    parentSpanId := text "parentSpanId"
    operationName := (text "name").getD ""
    serviceName := serviceName
    startTime := start
    endTime := stop
    durationMs := UInt64.ofNat ((stop - start) / 1000000)
    status := "OK"
    attributes := spanAttributes (span.get? "attributes") platformVersion }

/-- The items of an array below a key. -/
def itemsAt (j : Json) (key : String) : List Json := ((j.get? key).bind Json.asArray).getD []

/-- `parse_otlp_json`. -/
def parseOtlpJson (env : OtelEnv) (body : Json) : List OtelDatum :=
  ((itemsAt body "spans").filterMap env.readSpan).map .span ++
    ((itemsAt body "resourceSpans").flatMap fun rs =>
      let attributes := rs.pointer "resource" "attributes"
      let serviceName := (stringAttribute attributes "service.name").getD "unknown"
      let platformVersion := stringAttribute attributes "picloud.platform_version"
      (itemsAt rs "scopeSpans").flatMap fun ss =>
        (itemsAt ss "spans").map fun span => .span (otlpSpan serviceName platformVersion span)) ++
    ((itemsAt body "metrics").filterMap env.readMetric).map .metric ++
    ((itemsAt body "logs").filterMap env.readLog).map .log

/-! ## The stream, the collector and the aggregator -/

/-- The kinds of records that are counted. -/
inductive OtelKind where
  | span
  | metric
  | log
deriving DecidableEq

namespace OtelDatum

def kind : OtelDatum → OtelKind
  | .span _ => .span
  | .metric _ => .metric
  | .log _ => .log

def asSpan? : OtelDatum → Option SpanRecord
  | .span s => some s
  | _ => none

def asMetric? : OtelDatum → Option MetricRecord
  | .metric m => some m
  | _ => none

end OtelDatum

/-- The sections of `handle_otel_ingest`. -/
inductive IngestTask where
  /-- Publishes one record after the other. -/
  | publishing (rest : List OtelDatum) (spans : List SpanRecord) (metrics : List MetricRecord) (count : ℕ)
  | writingSpans (spans : List SpanRecord) (metrics : List MetricRecord) (count : ℕ)
  | writingMetrics (metrics : List MetricRecord) (count : ℕ)
  /-- The response: how many records were accepted. -/
  | accepted (count : ℕ)
  /-- The response without a stream. -/
  | notConfigured

/-- The collector: between two rounds of its loop, after it has counted a record, or in a flush. -/
inductive CollectorTask where
  | selecting
  | counted (datum : OtelDatum)
  | flushing

/-- The aggregator, with what it has taken from the counters and the buffer. -/
inductive AggregatorTask where
  | sleeping
  | swappedSpans (spans : ℕ)
  | swappedMetrics (spans metrics : ℕ)
  | swappedLogs (spans metrics logs : ℕ)
  | drained (spans metrics logs : ℕ) (buffered : List MetricRecord)
  | recorded (spans metrics logs : ℕ)

/-- The events of the aggregator. -/
inductive AggregatorEvent where
  | metricRecorded (metrics : List RecordedMetric)
  | telemetryAggregated (spanCount metricCount logCount : ℕ) (summaries : List RecordedMetric)

/-- What the tasks share, and the tasks. -/
structure OtelState where
  /-- What was published and not yet received. -/
  stream : List OtelDatum := []
  counter : OtelKind → ℕ := fun _ => 0
  metricBuffer : List MetricRecord := []
  /-- What was written to the store. -/
  spans : List SpanRecord := []
  metrics : List MetricRecord := []
  events : List AggregatorEvent := []
  handlers : List IngestTask := []
  collector : CollectorTask := .selecting
  spanBatch : List SpanRecord := []
  metricBatch : List MetricRecord := []
  aggregator : AggregatorTask := .sleeping

/-- What can happen next. -/
inductive OtelAct where
  /-- A request arrives. -/
  | request (body : Json)
  /-- The next section of a request. -/
  | handler (i : ℕ)
  /-- The next section of the collector; if it selects, whether the flush timer has ticked. -/
  | collector (tick : Bool)
  /-- The next section of the aggregator; if it appends an event, whether the log takes it. -/
  | aggregator (appended : Bool)

section Sections

variable (env : OtelEnv)

/-- `handle_otel_ingest` up to its first publication. -/
def handleOtelIngest (body : Json) : IngestTask :=
  if env.otelStream then
    let data := parseOtlpJson env body
    .publishing data (data.filterMap OtelDatum.asSpan?) (data.filterMap OtelDatum.asMetric?) data.length
  else .notConfigured

/-- The next section of a request. -/
def ingestStep (s : OtelState) : IngestTask → Option (OtelState × IngestTask)
  | .publishing (datum :: rest) spans metrics count =>
    some ({ s with stream := s.stream ++ [datum] }, .publishing rest spans metrics count)
  | .publishing [] spans metrics count =>
    if env.telemetryStore then some (s, .writingSpans spans metrics count) else some (s, .accepted count)
  | .writingSpans spans metrics count => some ({ s with spans := s.spans ++ spans }, .writingMetrics metrics count)
  | .writingMetrics metrics count => some ({ s with metrics := s.metrics ++ metrics }, .accepted count)
  | .accepted _ => none
  | .notConfigured => none

/-- What the collector does with a record that it has counted. -/
def keepDatum (s : OtelState) : OtelDatum → OtelState
  | .span span => { s with spanBatch := s.spanBatch ++ [span] }
  | .metric metric =>
    { s with metricBuffer := s.metricBuffer ++ [metric], metricBatch := s.metricBatch ++ [metric] }
  | .log _ => s

/-- The next section of the collector. -/
def collectorStep (s : OtelState) (tick : Bool) : Option OtelState :=
  match s.collector with
  | .selecting =>
    if tick then some { s with spans := s.spans ++ s.spanBatch, spanBatch := [], collector := .flushing }
    else match s.stream with
      | [] => none
      | datum :: rest => some { s with
          stream := rest
          counter := Function.update s.counter datum.kind ((s.counter datum.kind + 1) % 2 ^ 64)
          collector := .counted datum }
  | .counted datum => some { keepDatum s datum with collector := .selecting }
  | .flushing =>
    some { s with metrics := s.metrics ++ s.metricBatch, metricBatch := [], collector := .selecting }

/-- The summaries of a `TelemetryAggregated` event. -/
def otelSummaries (spans metrics logs : ℕ) : List RecordedMetric :=
  [⟨⟨"otel_spans_received", env.asF64 spans⟩, "count"⟩, ⟨⟨"otel_metrics_received", env.asF64 metrics⟩, "count"⟩,
    ⟨⟨"otel_logs_received", env.asF64 logs⟩, "count"⟩]

/-- `event_log.append`. -/
def appendReport (s : OtelState) (appended : Bool) (event : AggregatorEvent) : OtelState :=
  if appended then { s with events := s.events ++ [event] } else s

/-- The next section of the aggregator. -/
def aggregatorStep (s : OtelState) (appended : Bool) : OtelState :=
  match s.aggregator with
  | .sleeping =>
    { s with counter := Function.update s.counter .span 0, aggregator := .swappedSpans (s.counter .span) }
  | .swappedSpans spans =>
    { s with counter := Function.update s.counter .metric 0
             aggregator := .swappedMetrics spans (s.counter .metric) }
  | .swappedMetrics spans metrics =>
    { s with counter := Function.update s.counter .log 0
             aggregator := .swappedLogs spans metrics (s.counter .log) }
  | .swappedLogs spans metrics logs =>
    { s with metricBuffer := [], aggregator := .drained spans metrics logs s.metricBuffer }
  | .drained spans metrics logs buffered =>
    let s := { s with aggregator := .recorded spans metrics logs }
    if buffered = [] then s
    else appendReport s appended (.metricRecorded (aggregateOtelMetrics env.ops buffered))
  | .recorded spans metrics logs =>
    let s := { s with aggregator := .sleeping }
    if spans = 0 ∧ metrics = 0 ∧ logs = 0 then s
    else appendReport s appended (.telemetryAggregated spans metrics logs (otelSummaries env spans metrics logs))

/-- One action. -/
def otelStep (s : OtelState) : OtelAct → Option OtelState
  | .request body => some { s with handlers := s.handlers ++ [handleOtelIngest env body] }
  | .handler i => (s.handlers[i]?).bind fun task =>
      (ingestStep env s task).map fun next => { next.1 with handlers := next.1.handlers.set i next.2 }
  | .collector tick => collectorStep s tick
  | .aggregator appended => some (aggregatorStep env s appended)

end Sections

/-! ## What is claimed, and when it holds -/

section Claim

variable (env : OtelEnv)

/-- The records of an accepted request. -/
def acceptedRecords : OtelAct → List OtelDatum
  | .request body => if env.otelStream then parseOtlpJson env body else []
  | _ => []

/-- What an event reports of a kind. -/
def AggregatorEvent.count : AggregatorEvent → OtelKind → ℕ
  | .telemetryAggregated spanCount _ _ _, .span => spanCount
  | .telemetryAggregated _ metricCount _ _, .metric => metricCount
  | .telemetryAggregated _ _ logCount _, .log => logCount
  | .metricRecorded _, _ => 0

/-- The request has been answered. -/
def IngestTask.Answered : IngestTask → Prop
  | .accepted _ => True
  | .notConfigured => True
  | _ => False

/-- All requests are answered, and the collector and the aggregator have nothing left to do. -/
structure AllCollected (s : OtelState) : Prop where
  handlers : ∀ task ∈ s.handlers, task.Answered
  stream : s.stream = []
  collector : s.collector = .selecting
  spanBatch : s.spanBatch = []
  metricBatch : s.metricBatch = []
  counter : ∀ k, s.counter k = 0
  aggregator : s.aggregator = .sleeping

/-- The accepted spans and metrics are in the store once each, and the events report as many records of each kind as
were accepted. -/
structure IngestedOnce (acts : List OtelAct) (s : OtelState) : Prop where
  spans : s.spans.Perm ((acts.flatMap (acceptedRecords env)).filterMap OtelDatum.asSpan?)
  metrics : s.metrics.Perm ((acts.flatMap (acceptedRecords env)).filterMap OtelDatum.asMetric?)
  counts : ∀ k, (s.events.map (·.count k)).sum = (acts.flatMap (acceptedRecords env)).countP (·.kind = k)

/-- No accepted record is a span or a metric. -/
def OnlyLogs (acts : List OtelAct) : Prop := ∀ datum ∈ acts.flatMap (acceptedRecords env), datum.kind = .log

/-- The counter does not wrap, and the event log takes what is to be reported. -/
def KeepsCounts (s : OtelState) : OtelAct → Prop
  | .collector tick => ∀ datum rest, s.collector = .selecting → tick = false → s.stream = datum :: rest →
      s.counter datum.kind + 1 < 2 ^ 64
  | .aggregator appended => ∀ spans metrics logs, s.aggregator = .recorded spans metrics logs →
      spans = 0 ∧ metrics = 0 ∧ logs = 0 ∨ appended = true
  | _ => True

end Claim

/-! ## What is on its way to the store -/

section Records

variable {env : OtelEnv} {s s' : OtelState} {act : OtelAct}

/-- Spans and metrics, as records. -/
def records (spans : List SpanRecord) (metrics : List MetricRecord) : Multiset OtelDatum :=
  ((spans.map OtelDatum.span : List OtelDatum) : Multiset OtelDatum) + (metrics.map OtelDatum.metric : List OtelDatum)

/-- The records that are to be stored. -/
def storable (data : List OtelDatum) : Multiset OtelDatum := (data.filter (·.kind ≠ .log) : List OtelDatum)

theorem records_append (spans spans' : List SpanRecord) (metrics metrics' : List MetricRecord) :
    records (spans ++ spans') (metrics ++ metrics') = records spans metrics + records spans' metrics' := by
  rw [records, records, records, List.map_append, List.map_append, ← Multiset.coe_add, ← Multiset.coe_add]
  ac_rfl

@[simp] theorem records_nil : records [] [] = 0 := rfl

theorem storable_append (data data' : List OtelDatum) : storable (data ++ data') = storable data + storable data' := by
  rw [storable, List.filter_append]
  rfl

@[simp] theorem storable_nil : storable [] = 0 := rfl

theorem storable_singleton (datum : OtelDatum) :
    storable [datum] = records datum.asSpan?.toList datum.asMetric?.toList := by
  cases datum <;> rfl

/-- The records that are to be stored are the spans and the metrics. -/
theorem records_eq_storable (data : List OtelDatum) :
    records (data.filterMap OtelDatum.asSpan?) (data.filterMap OtelDatum.asMetric?) = storable data := by
  induction data with
  | nil => rfl
  | cons datum data ih =>
    have hspans : (datum :: data).filterMap OtelDatum.asSpan? =
        datum.asSpan?.toList ++ data.filterMap OtelDatum.asSpan? := by cases datum <;> rfl
    have hmetrics : (datum :: data).filterMap OtelDatum.asMetric? =
        datum.asMetric?.toList ++ data.filterMap OtelDatum.asMetric? := by cases datum <;> rfl
    rw [hspans, hmetrics, records_append, ih, ← storable_singleton, ← storable_append, List.singleton_append]

theorem asSpan_records (spans : List SpanRecord) (metrics : List MetricRecord) :
    (spans.map OtelDatum.span ++ metrics.map OtelDatum.metric).filterMap OtelDatum.asSpan? = spans := by
  have hmetrics : OtelDatum.asSpan? ∘ OtelDatum.metric = fun _ => none := rfl
  have hspans : OtelDatum.asSpan? ∘ OtelDatum.span = some := rfl
  rw [List.filterMap_append, List.filterMap_map, List.filterMap_map, hspans, hmetrics]
  simp

theorem asMetric_records (spans : List SpanRecord) (metrics : List MetricRecord) :
    (spans.map OtelDatum.span ++ metrics.map OtelDatum.metric).filterMap OtelDatum.asMetric? = metrics := by
  have hmetrics : OtelDatum.asMetric? ∘ OtelDatum.metric = some := rfl
  have hspans : OtelDatum.asMetric? ∘ OtelDatum.span = fun _ => none := rfl
  rw [List.filterMap_append, List.filterMap_map, List.filterMap_map, hspans, hmetrics]
  simp

theorem records_inj {spans spans' : List SpanRecord} {metrics metrics' : List MetricRecord} :
    records spans metrics = records spans' metrics' ↔ spans.Perm spans' ∧ metrics.Perm metrics' := by
  constructor
  · intro h
    have hperm := Multiset.coe_eq_coe.mp h
    refine ⟨?_, ?_⟩
    · have hspans := hperm.filterMap OtelDatum.asSpan?
      rwa [asSpan_records, asSpan_records] at hspans
    · have hmetrics := hperm.filterMap OtelDatum.asMetric?
      rwa [asMetric_records, asMetric_records] at hmetrics
  · rintro ⟨hspans, hmetrics⟩
    rw [records, records, Multiset.coe_eq_coe.mpr (hspans.map _), Multiset.coe_eq_coe.mpr (hmetrics.map _)]

/-- What the collector has counted and not yet kept. -/
def CollectorTask.inHand : CollectorTask → List OtelDatum
  | .counted datum => [datum]
  | _ => []

/-- What a request will still bring to the store. -/
def IngestTask.owed (env : OtelEnv) : IngestTask → Multiset OtelDatum
  | .publishing rest spans metrics _ => storable rest + if env.telemetryStore then records spans metrics else 0
  | .writingSpans spans metrics _ => records spans metrics
  | .writingMetrics metrics _ => records [] metrics
  | _ => 0

/-- What is stored, or was published and will be. -/
def published (s : OtelState) : Multiset OtelDatum :=
  records s.spans s.metrics + records s.spanBatch s.metricBatch + storable s.collector.inHand + storable s.stream

/-- What is stored or will be. -/
def heldRecords (env : OtelEnv) (s : OtelState) : Multiset OtelDatum :=
  published s + (s.handlers.map (IngestTask.owed env)).sum

/-- What an action brings to the store, at once or later: twice what is accepted, if the handler has the store. -/
def broughtRecords (env : OtelEnv) (act : OtelAct) : Multiset OtelDatum :=
  storable (acceptedRecords env act) + if env.telemetryStore then storable (acceptedRecords env act) else 0

/-- A section of a request keeps the records. -/
theorem published_ingestStep {task task' : IngestTask} (h : ingestStep env s task = some (s', task')) :
    published s' + task'.owed env = published s + task.owed env ∧ s'.handlers = s.handlers := by
  match task with
  | .publishing (datum :: rest) spans metrics count =>
    obtain ⟨rfl, rfl⟩ := Prod.mk.inj (Option.some.inj h)
    refine ⟨?_, rfl⟩
    have hcons : storable (datum :: rest) = storable [datum] + storable rest := storable_append [datum] rest
    simp only [published, IngestTask.owed, storable_append, hcons]
    ac_rfl
  | .publishing [] spans metrics count =>
    rw [ingestStep] at h
    cases hstore : env.telemetryStore with
    | true =>
      rw [hstore, if_pos rfl] at h
      obtain ⟨rfl, rfl⟩ := Prod.mk.inj (Option.some.inj h)
      simp [IngestTask.owed, hstore]
    | false =>
      rw [hstore, if_neg Bool.false_ne_true] at h
      obtain ⟨rfl, rfl⟩ := Prod.mk.inj (Option.some.inj h)
      simp [IngestTask.owed, hstore]
  | .writingSpans spans metrics count =>
    obtain ⟨rfl, rfl⟩ := Prod.mk.inj (Option.some.inj h)
    refine ⟨?_, rfl⟩
    have hspans : records (s.spans ++ spans) s.metrics = records s.spans s.metrics + records spans [] := by
      rw [← records_append, List.append_nil]
    have hboth : records spans metrics = records spans [] + records [] metrics := by
      rw [← records_append, List.append_nil, List.nil_append]
    simp only [published, IngestTask.owed, hspans, hboth]
    ac_rfl
  | .writingMetrics metrics count =>
    obtain ⟨rfl, rfl⟩ := Prod.mk.inj (Option.some.inj h)
    refine ⟨?_, rfl⟩
    have hmetrics : records s.spans (s.metrics ++ metrics) = records s.spans s.metrics + records [] metrics := by
      rw [← records_append, List.append_nil]
    simp only [published, IngestTask.owed, hmetrics, add_zero]
    ac_rfl
  | .accepted count => cases h
  | .notConfigured => cases h

/-- The collector keeps the records. -/
theorem published_collectorStep {tick : Bool} (h : collectorStep s tick = some s') :
    published s' = published s ∧ s'.handlers = s.handlers := by
  rw [collectorStep] at h
  cases hcollector : s.collector with
  | selecting =>
    rw [hcollector] at h
    cases tick with
    | true =>
      obtain rfl := Option.some.inj h
      refine ⟨?_, rfl⟩
      have hflush : records (s.spans ++ s.spanBatch) s.metrics + records [] s.metricBatch =
          records s.spans s.metrics + records s.spanBatch s.metricBatch := by
        rw [← records_append, ← records_append, List.append_nil]
      simp only [published, hcollector, CollectorTask.inHand, hflush]
    | false =>
      cases hstream : s.stream with
      | nil =>
        rw [hstream] at h
        cases h
      | cons datum rest =>
        rw [hstream] at h
        obtain rfl := Option.some.inj h
        refine ⟨?_, rfl⟩
        have hcons : storable (datum :: rest) = storable [datum] + storable rest := storable_append [datum] rest
        simp only [published, hcollector, hstream, CollectorTask.inHand, hcons, storable_nil, add_zero]
        ac_rfl
  | counted datum =>
    rw [hcollector] at h
    obtain rfl := Option.some.inj h
    have hkept : records (keepDatum s datum).spanBatch (keepDatum s datum).metricBatch =
        records s.spanBatch s.metricBatch + storable [datum] := by
      rw [storable_singleton, ← records_append]
      cases datum <;> simp [keepDatum, OtelDatum.asSpan?, OtelDatum.asMetric?]
    have hrest : (keepDatum s datum).spans = s.spans ∧ (keepDatum s datum).metrics = s.metrics ∧
        (keepDatum s datum).stream = s.stream ∧ (keepDatum s datum).handlers = s.handlers := by
      cases datum <;> exact ⟨rfl, rfl, rfl, rfl⟩
    obtain ⟨hspans, hmetrics, hstream, hhandlers⟩ := hrest
    refine ⟨?_, hhandlers⟩
    simp only [published, hcollector, CollectorTask.inHand, hspans, hmetrics, hstream, hkept, storable_nil, add_zero]
    ac_rfl
  | flushing =>
    rw [hcollector] at h
    obtain rfl := Option.some.inj h
    refine ⟨?_, rfl⟩
    have hflush : records s.spans (s.metrics ++ s.metricBatch) + records s.spanBatch [] =
        records s.spans s.metrics + records s.spanBatch s.metricBatch := by
      rw [← records_append, ← records_append, List.append_nil]
    simp only [published, hcollector, CollectorTask.inHand, hflush]

/-- The aggregator stores nothing. -/
theorem published_aggregatorStep (env : OtelEnv) (s : OtelState) (appended : Bool) :
    published (aggregatorStep env s appended) = published s ∧
      (aggregatorStep env s appended).handlers = s.handlers := by
  rw [aggregatorStep]
  split
  all_goals first | exact ⟨rfl, rfl⟩ | skip
  · dsimp only
    split
    · exact ⟨rfl, rfl⟩
    · rw [appendReport]
      split <;> exact ⟨rfl, rfl⟩
  · dsimp only
    split
    · exact ⟨rfl, rfl⟩
    · rw [appendReport]
      split <;> exact ⟨rfl, rfl⟩

theorem owed_handleOtelIngest (body : Json) :
    (handleOtelIngest env body).owed env = broughtRecords env (.request body) := by
  rw [handleOtelIngest, broughtRecords, acceptedRecords]
  split
  · rw [IngestTask.owed, records_eq_storable]
  · simp [IngestTask.owed]

/-- **Every action keeps the records that are stored or will be**, but for those that a request brings. -/
theorem heldRecords_step (h : otelStep env s act = some s') :
    heldRecords env s' = heldRecords env s + broughtRecords env act := by
  cases act with
  | request body =>
    obtain rfl := Option.some.inj h
    rw [heldRecords, heldRecords, List.map_append, List.sum_append, List.map_singleton, List.sum_singleton,
      owed_handleOtelIngest, ← add_assoc]
    rfl
  | handler i =>
    rw [otelStep, Option.bind_eq_some_iff] at h
    obtain ⟨task, htask, h⟩ := h
    obtain ⟨next, hnext, rfl⟩ := Option.map_eq_some_iff.mp h
    obtain ⟨hkept, hhandlers⟩ := published_ingestStep hnext
    have hset := Pool.held_set htask hkept
    rw [← hhandlers] at hset
    simp only [heldRecords, broughtRecords, acceptedRecords, storable_nil, ite_self, add_zero]
    rw [← hhandlers]
    exact hset
  | collector tick =>
    obtain ⟨hkept, hhandlers⟩ := published_collectorStep h
    simp [heldRecords, broughtRecords, acceptedRecords, hkept, hhandlers]
  | aggregator appended =>
    obtain rfl := Option.some.inj h
    obtain ⟨hkept, hhandlers⟩ := published_aggregatorStep env s appended
    simp [heldRecords, broughtRecords, acceptedRecords, hkept, hhandlers]

end Records

/-! ## What is on its way to an event -/

section Counts

variable {env : OtelEnv} {s s' : OtelState} {act : OtelAct}

/-- What the aggregator has taken and not yet reported. -/
def AggregatorTask.taken : AggregatorTask → OtelKind → ℕ
  | .swappedSpans spans, .span => spans
  | .swappedMetrics spans _, .span => spans
  | .swappedMetrics _ metrics, .metric => metrics
  | .swappedLogs spans _ _, .span => spans
  | .swappedLogs _ metrics _, .metric => metrics
  | .swappedLogs _ _ logs, .log => logs
  | .drained spans _ _ _, .span => spans
  | .drained _ metrics _ _, .metric => metrics
  | .drained _ _ logs _, .log => logs
  | .recorded spans _ _, .span => spans
  | .recorded _ metrics _, .metric => metrics
  | .recorded _ _ logs, .log => logs
  | _, _ => 0

/-- How many records of a kind there are. -/
def countKind (data : List OtelDatum) (k : OtelKind) : ℕ := data.countP (·.kind = k)

/-- What a request has not yet published. -/
def IngestTask.unpublished : IngestTask → OtelKind → ℕ
  | .publishing rest _ _ _ => countKind rest
  | _ => 0

/-- What is reported, or was published and can be. -/
def counted (s : OtelState) (k : OtelKind) : ℕ :=
  (s.events.map (·.count k)).sum + s.aggregator.taken k + s.counter k + countKind s.stream k

/-- What is reported or can be. -/
def heldCounts (s : OtelState) : OtelKind → ℕ := counted s + (s.handlers.map IngestTask.unpublished).sum

@[simp] theorem countKind_nil : countKind [] = 0 := rfl

theorem countKind_append (data data' : List OtelDatum) : countKind (data ++ data') = countKind data + countKind data' := by
  funext k
  exact List.countP_append

theorem countKind_cons (datum : OtelDatum) (data : List OtelDatum) (k : OtelKind) :
    countKind (datum :: data) k = countKind data k + if datum.kind = k then 1 else 0 := by
  simp [countKind, List.countP_cons]

/-- A section of a request keeps the counts. -/
theorem counted_ingestStep {task task' : IngestTask} (h : ingestStep env s task = some (s', task')) :
    counted s' + task'.unpublished = counted s + task.unpublished ∧ s'.handlers = s.handlers := by
  match task with
  | .publishing (datum :: rest) spans metrics count =>
    obtain ⟨rfl, rfl⟩ := Prod.mk.inj (Option.some.inj h)
    refine ⟨funext fun k => ?_, rfl⟩
    have hstream : countKind (s.stream ++ [datum]) k = countKind s.stream k + if datum.kind = k then 1 else 0 := by
      rw [countKind_append, Pi.add_apply, countKind_cons, countKind_nil, Pi.zero_apply, Nat.zero_add]
    simp only [Pi.add_apply, counted, IngestTask.unpublished, hstream, countKind_cons]
    omega
  | .publishing [] spans metrics count =>
    have hnothing : (IngestTask.publishing [] spans metrics count).unpublished = 0 := rfl
    rw [ingestStep] at h
    split at h
    · obtain ⟨rfl, rfl⟩ := Prod.mk.inj (Option.some.inj h)
      exact ⟨by rw [hnothing]; rfl, rfl⟩
    · obtain ⟨rfl, rfl⟩ := Prod.mk.inj (Option.some.inj h)
      exact ⟨by rw [hnothing]; rfl, rfl⟩
  | .writingSpans spans metrics count =>
    obtain ⟨rfl, rfl⟩ := Prod.mk.inj (Option.some.inj h)
    exact ⟨rfl, rfl⟩
  | .writingMetrics metrics count =>
    obtain ⟨rfl, rfl⟩ := Prod.mk.inj (Option.some.inj h)
    exact ⟨rfl, rfl⟩
  | .accepted count => cases h
  | .notConfigured => cases h

theorem mod_le_iff (c : ℕ) : (c + 1) % 2 ^ 64 ≤ c + 1 ∧ ((c + 1) % 2 ^ 64 = c + 1 ↔ c + 1 < 2 ^ 64) := by
  omega

/-- The collector loses counts only where a counter wraps. -/
theorem counted_collectorStep {tick : Bool} (h : collectorStep s tick = some s') :
    counted s' ≤ counted s ∧ (counted s' = counted s ↔ KeepsCounts s (.collector tick)) ∧ s'.handlers = s.handlers := by
  rw [collectorStep] at h
  cases hcollector : s.collector with
  | selecting =>
    rw [hcollector] at h
    cases tick with
    | true =>
      obtain rfl := Option.some.inj h
      exact ⟨le_rfl, ⟨fun _ datum rest _ htick => absurd htick (by decide), fun _ => rfl⟩, rfl⟩
    | false =>
      cases hstream : s.stream with
      | nil =>
        rw [hstream] at h
        cases h
      | cons datum rest =>
        rw [hstream] at h
        obtain rfl := Option.some.inj h
        obtain ⟨hmod, hmodEq⟩ := mod_le_iff (s.counter datum.kind)
        have hkind : ∀ k, Function.update s.counter datum.kind ((s.counter datum.kind + 1) % 2 ^ 64) k =
            if k = datum.kind then (s.counter datum.kind + 1) % 2 ^ 64 else s.counter k := by
          intro k
          rw [Function.update_apply]
        refine ⟨fun k => ?_, ?_, rfl⟩
        · simp only [counted, hstream, hkind, countKind_cons]
          by_cases hk : k = datum.kind
          · subst hk
            simp only [if_true]
            omega
          · simp only [if_neg hk, if_neg (Ne.symm hk)]
            omega
        · constructor
          · intro heq datum' rest' _ _ hcons
            obtain ⟨rfl, rfl⟩ := List.cons.inj (hstream.symm.trans hcons)
            have hone := congrFun heq datum.kind
            simp only [counted, hstream, hkind, countKind_cons, if_true] at hone
            exact hmodEq.mp (by omega)
          · intro hkeeps
            have hnowrap := hmodEq.mpr (hkeeps datum rest hcollector rfl hstream)
            funext k
            simp only [counted, hstream, hkind, countKind_cons]
            by_cases hk : k = datum.kind
            · subst hk
              simp only [if_true, hnowrap]
              omega
            · simp only [if_neg hk, if_neg (Ne.symm hk)]
              omega
  | counted datum =>
    rw [hcollector] at h
    obtain rfl := Option.some.inj h
    have hkept : counted (keepDatum s datum) = counted s := by cases datum <;> rfl
    have hhandlers : (keepDatum s datum).handlers = s.handlers := by cases datum <;> rfl
    have hsame : counted { keepDatum s datum with collector := .selecting } = counted s := hkept
    refine ⟨hsame.le, ⟨fun _ d r hselecting => ?_, fun _ => hsame⟩, hhandlers⟩
    rw [hcollector] at hselecting
    cases hselecting
  | flushing =>
    rw [hcollector] at h
    obtain rfl := Option.some.inj h
    refine ⟨le_rfl, ⟨fun _ d r hselecting => ?_, fun _ => rfl⟩, rfl⟩
    rw [hcollector] at hselecting
    cases hselecting

/-- What an event reports, taken from the aggregator. -/
theorem counted_report (env : OtelEnv) {spans metrics logs : ℕ} (h : s.aggregator = .recorded spans metrics logs) (appended : Bool) :
    counted (aggregatorStep env s appended) ≤ counted s ∧
      (counted (aggregatorStep env s appended) = counted s ↔
        spans = 0 ∧ metrics = 0 ∧ logs = 0 ∨ appended = true) := by
  have hbefore : ∀ k, counted s k =
      (s.events.map (·.count k)).sum + (AggregatorTask.recorded spans metrics logs).taken k + s.counter k +
        countKind s.stream k := by
    intro k
    rw [counted, h]
  by_cases hzero : spans = 0 ∧ metrics = 0 ∧ logs = 0
  · obtain ⟨rfl, rfl, rfl⟩ := hzero
    have hsame : counted (aggregatorStep env s appended) = counted s := by
      funext k
      rw [hbefore, aggregatorStep, h]
      cases k <;> rfl
    exact ⟨hsame.le, ⟨fun _ => Or.inl ⟨rfl, rfl, rfl⟩, fun _ => hsame⟩⟩
  · cases appended with
    | true =>
      have hsame : counted (aggregatorStep env s true) = counted s := by
        funext k
        rw [hbefore, aggregatorStep, h]
        dsimp only
        rw [if_neg hzero, appendReport, if_pos rfl]
        cases k <;> simp [counted, AggregatorTask.taken, AggregatorEvent.count]
      exact ⟨hsame.le, ⟨fun _ => Or.inr rfl, fun _ => hsame⟩⟩
    | false =>
      have hlost : ∀ k, counted (aggregatorStep env s false) k =
          (s.events.map (·.count k)).sum + s.counter k + countKind s.stream k := by
        intro k
        rw [aggregatorStep, h]
        dsimp only
        rw [if_neg hzero, appendReport, if_neg Bool.false_ne_true]
        cases k <;> rfl
      refine ⟨fun k => ?_, ⟨fun heq => ?_, fun hor => ?_⟩⟩
      · simp only [hlost, hbefore]
        omega
      · -- an equal count would mean that there was nothing to report
        refine absurd ⟨?_, ?_, ?_⟩ hzero
        · have hspan := congrFun heq .span
          simp only [hlost, hbefore, AggregatorTask.taken] at hspan
          omega
        · have hmetric := congrFun heq .metric
          simp only [hlost, hbefore, AggregatorTask.taken] at hmetric
          omega
        · have hlog := congrFun heq .log
          simp only [hlost, hbefore, AggregatorTask.taken] at hlog
          omega
      · rcases hor with hall | htrue
        · exact absurd hall hzero
        · cases htrue

/-- The aggregator loses counts only where the event log refuses them. -/
theorem counted_aggregatorStep (env : OtelEnv) (s : OtelState) (appended : Bool) :
    counted (aggregatorStep env s appended) ≤ counted s ∧
    (counted (aggregatorStep env s appended) = counted s ↔ KeepsCounts s (.aggregator appended)) := by
  -- only the last section can lose anything
  have hkeeps : (∀ spans metrics logs, s.aggregator ≠ .recorded spans metrics logs) →
      counted (aggregatorStep env s appended) = counted s →
      counted (aggregatorStep env s appended) ≤ counted s ∧
        (counted (aggregatorStep env s appended) = counted s ↔ KeepsCounts s (.aggregator appended)) :=
    fun hother hsame => ⟨hsame.le, ⟨fun _ spans metrics logs heq => absurd heq (hother spans metrics logs),
      fun _ => hsame⟩⟩
  have hbefore : ∀ k, counted s k =
      (s.events.map (·.count k)).sum + s.aggregator.taken k + s.counter k + countKind s.stream k := fun _ => rfl
  cases haggregator : s.aggregator with
  | sleeping =>
    refine hkeeps (by simp [haggregator]) (funext fun k => ?_)
    rw [hbefore, aggregatorStep, haggregator]
    cases k <;> simp [counted, AggregatorTask.taken]
  | swappedSpans spans =>
    refine hkeeps (by simp [haggregator]) (funext fun k => ?_)
    rw [hbefore, aggregatorStep, haggregator]
    cases k <;> simp [counted, AggregatorTask.taken]
  | swappedMetrics spans metrics =>
    refine hkeeps (by simp [haggregator]) (funext fun k => ?_)
    rw [hbefore, aggregatorStep, haggregator]
    cases k <;> simp [counted, AggregatorTask.taken]
  | swappedLogs spans metrics logs =>
    refine hkeeps (by simp [haggregator]) (funext fun k => ?_)
    rw [hbefore, aggregatorStep, haggregator]
    cases k <;> rfl
  | drained spans metrics logs buffered =>
    refine hkeeps (by simp [haggregator]) (funext fun k => ?_)
    rw [hbefore, aggregatorStep, haggregator]
    dsimp only
    split
    · cases k <;> rfl
    · rw [appendReport]
      split
      · cases k <;> simp [counted, AggregatorTask.taken, AggregatorEvent.count]
      · cases k <;> rfl
  | recorded spans metrics logs =>
    obtain ⟨hle, heq⟩ := counted_report env haggregator appended
    refine ⟨hle, heq.trans ⟨fun hor spans' metrics' logs' hrecorded => ?_, fun hkept => ?_⟩⟩
    · cases haggregator.symm.trans hrecorded
      exact hor
    · exact hkept spans metrics logs haggregator

/-- **An action loses counts exactly where a counter wraps or a report is refused.** -/
theorem heldCounts_step (h : otelStep env s act = some s') :
    heldCounts s' ≤ heldCounts s + countKind (acceptedRecords env act) ∧
      (heldCounts s' = heldCounts s + countKind (acceptedRecords env act) ↔ KeepsCounts s act) := by
  cases act with
  | request body =>
    obtain rfl := Option.some.inj h
    have hnew : (handleOtelIngest env body).unpublished = countKind (acceptedRecords env (.request body)) := by
      rw [handleOtelIngest, acceptedRecords]
      split <;> rfl
    have hsame : heldCounts { s with handlers := s.handlers ++ [handleOtelIngest env body] } =
        heldCounts s + countKind (acceptedRecords env (.request body)) := by
      rw [heldCounts, heldCounts, List.map_append, List.sum_append, List.map_singleton, List.sum_singleton, hnew,
        ← add_assoc]
      rfl
    exact ⟨hsame.le, ⟨fun _ => trivial, fun _ => hsame⟩⟩
  | handler i =>
    rw [otelStep, Option.bind_eq_some_iff] at h
    obtain ⟨task, htask, h⟩ := h
    obtain ⟨next, hnext, rfl⟩ := Option.map_eq_some_iff.mp h
    obtain ⟨hkept, hhandlers⟩ := counted_ingestStep hnext
    have hset := Pool.held_set htask hkept
    rw [← hhandlers] at hset
    have hsame : heldCounts { next.1 with handlers := next.1.handlers.set i next.2 } = heldCounts s := by
      rw [heldCounts, heldCounts, ← hhandlers]
      exact hset
    have hnone : acceptedRecords env (.handler i) = [] := rfl
    rw [hnone, countKind_nil, add_zero]
    exact ⟨hsame.le, ⟨fun _ => trivial, fun _ => hsame⟩⟩
  | collector tick =>
    obtain ⟨hle, heq, hhandlers⟩ := counted_collectorStep h
    have hnone : acceptedRecords env (.collector tick) = [] := rfl
    rw [hnone, countKind_nil, add_zero, heldCounts, heldCounts, hhandlers, add_left_inj]
    exact ⟨add_le_add_left hle _, heq⟩
  | aggregator appended =>
    obtain rfl := Option.some.inj h
    obtain ⟨hle, heq⟩ := counted_aggregatorStep env s appended
    have hhandlers := (published_aggregatorStep env s appended).2
    have hnone : acceptedRecords env (.aggregator appended) = [] := rfl
    rw [hnone, countKind_nil, add_zero, heldCounts, heldCounts, hhandlers, add_left_inj]
    exact ⟨add_le_add_left hle _, heq⟩

end Counts

/-! ## The exact condition -/

section Condition

variable {env : OtelEnv} {acts : List OtelAct} {s : OtelState}

theorem owed_of_answered (env : OtelEnv) {task : IngestTask} (h : task.Answered) : task.owed env = 0 ∧ task.unpublished = 0 := by
  cases task with
  | accepted count => exact ⟨rfl, rfl⟩
  | notConfigured => exact ⟨rfl, rfl⟩
  | publishing rest spans metrics count => exact absurd h id
  | writingSpans spans metrics count => exact absurd h id
  | writingMetrics metrics count => exact absurd h id

/-- In the end, what is held is stored. -/
theorem AllCollected.heldRecords (env : OtelEnv) (h : AllCollected s) : heldRecords env s = records s.spans s.metrics := by
  have hhandlers : (s.handlers.map (IngestTask.owed env)).sum = 0 := by
    refine List.sum_eq_zero fun owed howed => ?_
    obtain ⟨task, htask, rfl⟩ := List.mem_map.mp howed
    exact (owed_of_answered env (h.handlers task htask)).1
  rw [Picloud.heldRecords, published, hhandlers, h.spanBatch, h.metricBatch, h.stream, h.collector]
  simp [CollectorTask.inHand]

/-- In the end, what is held is reported. -/
theorem AllCollected.heldCounts (env : OtelEnv) (h : AllCollected s) (k : OtelKind) :
    heldCounts s k = (s.events.map (·.count k)).sum := by
  have hhandlers : (s.handlers.map IngestTask.unpublished).sum = 0 := by
    refine List.sum_eq_zero fun counts hcounts => ?_
    obtain ⟨task, htask, rfl⟩ := List.mem_map.mp hcounts
    exact (owed_of_answered env (h.handlers task htask)).2
  rw [Picloud.heldCounts, hhandlers, add_zero, counted, h.stream, h.aggregator, h.counter]
  simp [AggregatorTask.taken]

theorem sum_broughtRecords (env : OtelEnv) (acts : List OtelAct) : (acts.map (broughtRecords env)).sum =
    storable (acts.flatMap (acceptedRecords env)) +
      if env.telemetryStore then storable (acts.flatMap (acceptedRecords env)) else 0 := by
  induction acts with
  | nil => simp
  | cons act acts ih =>
    rw [List.map_cons, List.sum_cons, ih, List.flatMap_cons, storable_append, broughtRecords]
    split
    · ac_rfl
    · rw [add_zero, add_zero, add_zero]

theorem sum_countKind (env : OtelEnv) (acts : List OtelAct) :
    (acts.map fun act => countKind (acceptedRecords env act)).sum = countKind (acts.flatMap (acceptedRecords env)) := by
  induction acts with
  | nil => simp
  | cons act acts ih => rw [List.map_cons, List.sum_cons, ih, List.flatMap_cons, countKind_append]

theorem storable_eq_zero_iff {data : List OtelDatum} : storable data = 0 ↔ ∀ datum ∈ data, datum.kind = .log := by
  simp [storable]

/-- The spans and metrics are stored once exactly when the handler does not store them a second time. -/
theorem storedOnce_iff (hrun : runSteps (otelStep env) {} acts = some s) (hcollected : AllCollected s) :
    s.spans.Perm ((acts.flatMap (acceptedRecords env)).filterMap OtelDatum.asSpan?) ∧
        s.metrics.Perm ((acts.flatMap (acceptedRecords env)).filterMap OtelDatum.asMetric?) ↔
      env.telemetryStore = false ∨ OnlyLogs env acts := by
  have hheld := held_runSteps (fun t a t' (h : otelStep env t a = some t') => heldRecords_step h) acts {} s hrun
  have hempty : heldRecords env {} = 0 := rfl
  rw [hcollected.heldRecords env, hempty, zero_add, sum_broughtRecords] at hheld
  rw [← records_inj, records_eq_storable, hheld, OnlyLogs, ← storable_eq_zero_iff]
  cases env.telemetryStore with
  | true => simp
  | false => simp

/-- All records are reported exactly when no action loses a count. -/
theorem countsReported_iff (hrun : runSteps (otelStep env) {} acts = some s) (hcollected : AllCollected s) :
    (∀ k, (s.events.map (·.count k)).sum = countKind (acts.flatMap (acceptedRecords env)) k) ↔
      StepsMeet (otelStep env) KeepsCounts {} acts := by
  have hheld := (held_runSteps_le (fun t a t' (h : otelStep env t a = some t') => (heldCounts_step h).1)
    (fun t a t' h => (heldCounts_step h).2) acts {} s hrun).2
  have hempty : heldCounts {} = 0 := by
    funext k
    rfl
  rw [hempty, zero_add, sum_countKind] at hheld
  rw [← hheld, funext_iff]
  exact forall_congr' fun k => by rw [hcollected.heldCounts env]

/-- **Ingested telemetry is stored and reported once exactly when the handler has no store or gets only logs, no
counter wraps, and no report is refused.** -/
theorem ingestedOnce_iff (env : OtelEnv) (acts : List OtelAct) (s : OtelState)
    (hrun : runSteps (otelStep env) {} acts = some s) (hcollected : AllCollected s) :
    IngestedOnce env acts s ↔
      (env.telemetryStore = false ∨ OnlyLogs env acts) ∧ StepsMeet (otelStep env) KeepsCounts {} acts := by
  rw [← storedOnce_iff hrun hcollected, ← countsReported_iff hrun hcollected]
  exact ⟨fun h => ⟨⟨h.spans, h.metrics⟩, h.counts⟩, fun h => ⟨h.1.1, h.1.2, h.2⟩⟩

/-- With fewer than 2^64 records of each kind no counter wraps, so it is enough that no report is refused. -/
theorem keepsCounts_of_few (happended : ∀ appended, .aggregator appended ∈ acts → appended = true)
    (hfew : ∀ k, heldCounts s k + countKind (acts.flatMap (acceptedRecords env)) k < 2 ^ 64) :
    StepsMeet (otelStep env) KeepsCounts s acts := by
  induction acts generalizing s with
  | nil => trivial
  | cons act acts ih =>
    have hsplit : ∀ k, countKind ((act :: acts).flatMap (acceptedRecords env)) k =
        countKind (acceptedRecords env act) k + countKind (acts.flatMap (acceptedRecords env)) k := by
      intro k
      rw [List.flatMap_cons, countKind_append, Pi.add_apply]
    refine ⟨?_, ?_⟩
    · cases act with
      | request body => trivial
      | handler i => trivial
      | collector tick =>
        intro datum rest _ _ hstream
        -- the record in the stream is counted beside the counter
        have hheld := hfew datum.kind
        rw [heldCounts, Pi.add_apply, counted, hstream, countKind_cons, if_pos rfl] at hheld
        omega
      | aggregator appended =>
        intro spans metrics logs _
        exact Or.inr (happended appended (by simp))
    · cases hstep : otelStep env s act with
      | none => trivial
      | some t =>
        refine ih (fun appended h => happended appended (List.mem_cons_of_mem _ h)) fun k => ?_
        have hle : heldCounts t k ≤ heldCounts s k + countKind (acceptedRecords env act) k :=
          (heldCounts_step hstep).1 k
        have hk := hfew k
        rw [hsplit] at hk
        omega

end Condition

/-! ## One span -/

/-- A request with one span in the standard format. -/
def oneSpanBody : Json :=
  .object [("resourceSpans", .array [.object [("scopeSpans", .array [.object [("spans", .array [.object
    [("traceId", .string "5b8aa5a2d2c872e8"), ("spanId", .string "051581bf3cb55c13"), ("name", .string "GET /api")]])]])]])]

/-- A server with or without a store in its handler; the request has nothing for `serde_json` to read. -/
def oneSpanEnv (telemetryStore : Bool) : OtelEnv where
  readSpan _ := none
  readMetric _ := none
  readLog _ := none
  ops := lastOps
  asF64 _ := 0
  otelStream := true
  telemetryStore := telemetryStore

/-- The collector receives the record, keeps it and flushes, and the aggregator reports. -/
def collectAndReport : List OtelAct :=
  [.collector false, .collector false, .collector true, .collector false] ++ List.replicate 6 (.aggregator true)

/-- The request, answered after so many sections. -/
def oneSpanRun (sections : ℕ) : List OtelAct :=
  .request oneSpanBody :: List.replicate sections (.handler 0) ++ collectAndReport

/-- A handler without a store publishes the span, which is stored and reported once. -/
theorem ingestedOnce_withoutStore : ∃ s, runSteps (otelStep (oneSpanEnv false)) {} (oneSpanRun 2) = some s ∧
    AllCollected s ∧ IngestedOnce (oneSpanEnv false) (oneSpanRun 2) s := by
  have hcollected : ∃ s, runSteps (otelStep (oneSpanEnv false)) {} (oneSpanRun 2) = some s ∧ AllCollected s := by
    refine ⟨_, rfl, fun task htask => ?_, rfl, rfl, rfl, rfl, fun k => ?_, rfl⟩
    · obtain rfl := List.mem_singleton.mp htask
      trivial
    · cases k <;> rfl
  obtain ⟨s, hrun, hs⟩ := hcollected
  refine ⟨s, hrun, hs, (ingestedOnce_iff _ _ s hrun hs).mpr ⟨Or.inl rfl, keepsCounts_of_few ?_ fun k => ?_⟩⟩
  · simp [oneSpanRun, collectAndReport, List.replicate]
  · cases k <;> decide +kernel

/-- A handler with a store writes the span, and the collector writes it again. -/
theorem not_ingestedOnce_withStore : ∃ s, runSteps (otelStep (oneSpanEnv true)) {} (oneSpanRun 4) = some s ∧
    AllCollected s ∧ ¬ IngestedOnce (oneSpanEnv true) (oneSpanRun 4) s := by
  refine ⟨_, rfl, ⟨fun task htask => ?_, rfl, rfl, rfl, rfl, fun k => ?_, rfl⟩, fun h => ?_⟩
  · obtain rfl := List.mem_singleton.mp htask
    trivial
  · cases k <;> rfl
  · exact absurd h.spans.length_eq (by decide)

end Picloud
