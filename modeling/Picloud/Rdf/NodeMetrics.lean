import Picloud.Alerts.Evaluator
import Picloud.Rdf.Facts
import Picloud.Telemetry.Records

/-!
# The metrics of a node

Reference: `MetricsAgent` of `picloud-http/src/metrics.rs`, `OtelAggregator` of `picloud-http/src/otel.rs` and
`project_metric_recorded` of `picloud-rdf/src/implementation.rs`.

The agent and the aggregator both report metrics of one node. The projector forgets all six metrics of the
node before it writes those of an event, so a metric is kept only as long as every event mentions it.
-/

namespace Picloud

open Lib

/-! ## The emitters -/

/-- `MetricEntry`, with its unit; the value is the bit pattern of an `f64`. -/
structure RecordedMetric extends MetricEntry UInt64 where
  unit : String

/-- The `f64` operations of the aggregator. -/
structure MeanOps where
  zero : UInt64
  add : UInt64 → UInt64 → UInt64
  /-- `sum / count as f64`. -/
  divCount : UInt64 → ℕ → UInt64

/-- What the agent reads of the hardware. -/
structure SystemReadings where
  /-- `read_cpu_usage`. -/
  cpuUsage : Option UInt64
  /-- `read_memory_info`. -/
  memoryInfo : Option (UInt64 × UInt64)
  /-- `read_disk_usage`. -/
  diskUsage : Option (UInt64 × UInt64)
  /-- `read_cpu_temperature`. -/
  cpuTemperature : Option UInt64

/-- `collect_system_metrics`. -/
def collectSystemMetrics (r : SystemReadings) : List RecordedMetric :=
  (r.cpuUsage.toList.map fun cpu => ⟨⟨"cpu_usage_percent", cpu⟩, "percent"⟩) ++
    (r.memoryInfo.toList.flatMap fun (used, total) =>
      [⟨⟨"memory_used_mb", used⟩, "mb"⟩, ⟨⟨"memory_total_mb", total⟩, "mb"⟩]) ++
    (r.diskUsage.toList.flatMap fun (used, total) =>
      [⟨⟨"disk_used_gb", used⟩, "gb"⟩, ⟨⟨"disk_total_gb", total⟩, "gb"⟩]) ++
    (r.cpuTemperature.toList.map fun temp => ⟨⟨"cpu_temp_celsius", temp⟩, "celsius"⟩)

/-- The sums, counts and units by name, as `aggregate_otel_metrics` accumulates them. -/
def accumulateMetrics (ops : MeanOps) (records : List MetricRecord) :
    Assoc String (UInt64 × ℕ × String) :=
  records.foldl (fun accum record =>
    let entry := (accum.get record.name).getD (ops.zero, 0, record.unit)
    accum.set record.name (ops.add entry.1 record.value, entry.2.1 + 1, entry.2.2)) []

/-- `aggregate_otel_metrics`. -/
def aggregateOtelMetrics (ops : MeanOps) (records : List MetricRecord) : List RecordedMetric :=
  ((accumulateMetrics ops records).map fun entry =>
    (⟨⟨entry.1, ops.divCount entry.2.1 entry.2.2.1⟩, entry.2.2.2⟩ : RecordedMetric)).mergeSort
      fun a b => a.name ≤ b.name

/-- A round of one of the two tasks. -/
inductive MetricRound where
  /-- The agent has read the hardware. -/
  | agent (readings : SystemReadings)
  /-- The aggregator has drained its buffer. -/
  | aggregator (records : List MetricRecord)

/-- The metrics that the round reports. -/
def MetricRound.metrics (ops : MeanOps) : MetricRound → List RecordedMetric
  | .agent readings => collectSystemMetrics readings
  | .aggregator records => aggregateOtelMetrics ops records

/-- An `f64` in JSON; `serde_json` writes what is not finite as null. -/
def f64Json (bits : UInt64) : Json :=
  if (bits >>> 52) &&& 0x7ff = 0x7ff then .null else .number (.float bits)

/-- A metric in JSON. -/
def RecordedMetric.toJson (m : RecordedMetric) : Json :=
  .object [("name", .string m.name), ("value", f64Json m.value), ("unit", .string m.unit)]

/-- What an emission draws: its identifiers and the time. -/
structure EmissionDraw where
  id : Uuid
  correlationId : Uuid
  now : ℤ

/-- The event with some metrics. -/
def metricRecorded (iris : IriBuilder) (nodeIri : ResourceIri) (draw : EmissionDraw)
    (metrics : List RecordedMetric) : EventEnvelope :=
  EventEnvelope.new draw.id draw.now ⟨iris.eventSchema "MetricRecorded" 1⟩ "MetricRecorded" nodeIri none
    draw.correlationId (.object [("node_iri", .string nodeIri.value),
      ("metrics", .array (metrics.map RecordedMetric.toJson))])

/-- The rounds that have something to report, with what they report. -/
def reported (ops : MeanOps) (rounds : List (EmissionDraw × MetricRound)) :
    List (EmissionDraw × List RecordedMetric) :=
  (rounds.map fun r => (r.1, r.2.metrics ops)).filter fun r => r.2 ≠ []

/-- The events that are emitted. -/
def emittedMetrics (ops : MeanOps) (iris : IriBuilder) (nodeIri : ResourceIri)
    (rounds : List (EmissionDraw × MetricRound)) : List EventEnvelope :=
  (reported ops rounds).map fun r => metricRecorded iris nodeIri r.1 r.2

/-! ## What the graph should hold -/

/-- The value that an event gives for a metric. -/
def valueIn (metrics : List RecordedMetric) (name : String) : Option UInt64 :=
  (metrics.find? (·.name = name)).map fun m => m.value

/-- The value of the last event that mentions the metric. -/
def latestValue (history : List (List RecordedMetric)) (name : String) : Option UInt64 :=
  history.foldl (fun value metrics => (valueIn metrics name).or value) none

/-- A value in the graph. -/
def metricTerm (env : ProjectorEnv) (bits : UInt64) : Term :=
  typed (match f64Json bits with
    | .number n => env.f64Text n
    | _ => "0") xsdDouble

/-- The graph holds of each of the six metrics this value, or none. -/
def HoldsMetrics (env : ProjectorEnv) (nodeIri : ResourceIri) (value : String → Option UInt64) (s : Store) :
    Prop :=
  ∀ p ∈ metricPredicates, ∀ o, Has s nodeIri.value p.2 o ↔ ∃ bits, value p.1 = some bits ∧ o = metricTerm env bits

/-- The event mentions the metric. -/
def Mentions (metrics : List RecordedMetric) (name : String) : Prop := ∃ m ∈ metrics, m.name = name

/-! ## What one event does -/

section Names

variable {ops : MeanOps}

theorem nodup_keys_accumulateMetrics (ops : MeanOps) (records : List MetricRecord) :
    (Assoc.keys (accumulateMetrics ops records)).Nodup := by
  have hfold : ∀ accum : Assoc String (UInt64 × ℕ × String), accum.keys.Nodup →
      (Assoc.keys (records.foldl (fun accum record =>
        let entry := (accum.get record.name).getD (ops.zero, 0, record.unit)
        accum.set record.name (ops.add entry.1 record.value, entry.2.1 + 1, entry.2.2)) accum)).Nodup := by
    induction records with
    | nil => exact fun accum h => h
    | cons record records ih => exact fun accum h => ih _ (Assoc.nodup_keys_set h _ _)
  exact hfold [] List.nodup_nil

/-- A round mentions a metric once. -/
theorem nodup_names_metrics (ops : MeanOps) (round : MetricRound) :
    ((round.metrics ops).map fun m => m.name).Nodup := by
  cases round with
  | agent readings =>
    rcases readings with ⟨_ | cpu, _ | memory, _ | disk, _ | temperature⟩ <;>
      simp [MetricRound.metrics, collectSystemMetrics]
  | aggregator records =>
    have hperm := (List.mergeSort_perm ((accumulateMetrics ops records).map fun entry =>
      (⟨⟨entry.1, ops.divCount entry.2.1 entry.2.2.1⟩, entry.2.2.2⟩ : RecordedMetric))
      fun a b => a.name ≤ b.name).map fun m => m.name
    refine hperm.nodup_iff.mpr ?_
    rw [List.map_map]
    exact nodup_keys_accumulateMetrics ops records

theorem nodup_names_reported (ops : MeanOps) {rounds : List (EmissionDraw × MetricRound)}
    {r : EmissionDraw × List RecordedMetric} (h : r ∈ reported ops rounds) :
    (r.2.map fun m => m.name).Nodup := by
  obtain ⟨round, -, rfl⟩ := List.mem_map.mp (List.mem_filter.mp h).1
  exact nodup_names_metrics ops round.2

theorem valueIn_eq_some_iff {metrics : List RecordedMetric} (h : (metrics.map fun m => m.name).Nodup)
    {name : String} {bits : UInt64} :
    valueIn metrics name = some bits ↔ ∃ m ∈ metrics, m.name = name ∧ m.value = bits := by
  rw [valueIn, Option.map_eq_some_iff]
  constructor
  · rintro ⟨m, hfind, rfl⟩
    exact ⟨m, List.mem_of_find?_eq_some hfind, by simpa using List.find?_some hfind, rfl⟩
  · rintro ⟨m, hm, rfl, rfl⟩
    obtain ⟨m', hm'⟩ := Option.isSome_iff_exists.mp
      (List.find?_isSome.mpr ⟨m, hm, decide_eq_true rfl⟩ : (metrics.find? (·.name = m.name)).isSome)
    have hname : m'.name = m.name := by simpa using List.find?_some hm'
    exact ⟨m', hm', by rw [List.inj_on_of_nodup_map h (List.mem_of_find?_eq_some hm') hm hname]⟩

theorem valueIn_eq_none_iff {metrics : List RecordedMetric} {name : String} :
    valueIn metrics name = none ↔ ¬ Mentions metrics name := by
  simp [valueIn, Mentions]

end Names

section Event

variable {env : ProjectorEnv} {iris : IriBuilder} {nodeIri : ResourceIri} {draw : EmissionDraw}
  {metrics : List RecordedMetric} {s : Store}

/-- What is forgotten. -/
def forgetMetrics (nodeIri : ResourceIri) : List Op :=
  .named "invalid node IRI: " nodeIri.value ::
    metricPredicates.flatMap (fun p => clearInDefault nodeIri.value (pc p.2)) ++
    clearInDefault nodeIri.value (pc "metricsUpdatedAt")

/-- What is written. -/
def writeMetrics (env : ProjectorEnv) (nodeIri : ResourceIri) (now : ℤ) (metrics : List RecordedMetric) :
    List Op :=
  (metrics.map RecordedMetric.toJson).flatMap (metricTriple env nodeIri.value) ++
    insertTriple nodeIri.value (pc "metricsUpdatedAt") (typed (env.rfc3339 now) xsdDateTime)

theorem script_metricRecorded : script env (metricRecorded iris nodeIri draw metrics) =
    [.ops (forgetMetrics nodeIri ++ writeMetrics env nodeIri draw.now metrics)] := by
  have hscript : script env (metricRecorded iris nodeIri draw metrics) =
      projectMetricRecorded env (metricRecorded iris nodeIri draw metrics) := rfl
  rw [hscript, forgetMetrics, writeMetrics, ← List.append_assoc]
  rfl

theorem metricTriple_toJson (m : RecordedMetric) : metricTriple env nodeIri.value m.toJson =
    (metricPredicates.lookup m.name).toList.flatMap fun predicate =>
      insertTriple nodeIri.value (pc predicate) (metricTerm env m.value) := rfl

theorem lookup_metricPredicates {name predicate : String} :
    metricPredicates.lookup name = some predicate ↔ (name, predicate) ∈ metricPredicates := by
  simp only [metricPredicates, List.lookup_cons, List.lookup_nil, List.mem_cons, List.not_mem_nil, or_false, Prod.mk.injEq]
  repeat' split
  all_goals simp_all
  all_goals exact eq_comm

/-- Two metrics do not share a property. -/
theorem metricPredicates_inj : ∀ p ∈ metricPredicates, ∀ p' ∈ metricPredicates, p.2 = p'.2 → p = p' := by
  decide

/-- Every check of the operations is passed. -/
theorem error_metricRecorded (h : env.checks.iri nodeIri.value = none) :
    ∀ op ∈ forgetMetrics nodeIri ++ writeMetrics env nodeIri draw.now metrics, op.error env.checks = none := by
  have hnames : ∀ p ∈ metricPredicates, env.checks.iri (pc p.2) = none := fun p hp =>
    env.iri_pc p.2 ((by decide : ∀ p ∈ metricPredicates, ∀ c ∈ p.2.toList, c.isAlphanum = true) p hp)
  have hupdated : env.checks.iri (pc "metricsUpdatedAt") = none := env.iri_pc _ (by decide)
  have hinsert : ∀ {name : String} {o : Term}, env.checks.iri (pc name) = none →
      ∀ op ∈ insertTriple nodeIri.value (pc name) o, op.error env.checks = none := by
    intro name o hname op hop
    simp only [insertTriple, List.mem_cons, List.not_mem_nil, or_false] at hop
    rcases hop with rfl | rfl | rfl
    · exact congrArg (Option.map _) h
    · exact congrArg (Option.map _) hname
    · rfl
  have hclear : ∀ {name : String}, env.checks.iri (pc name) = none →
      ∀ op ∈ clearInDefault nodeIri.value (pc name), op.error env.checks = none := by
    intro name hname op hop
    simp only [clearInDefault, List.mem_cons, List.not_mem_nil, or_false] at hop
    rcases hop with rfl | rfl
    · exact congrArg (Option.map _) hname
    · rfl
  intro op hop
  simp only [forgetMetrics, writeMetrics, List.mem_append, List.mem_cons, List.mem_flatMap, List.mem_map] at hop
  rcases hop with ((rfl | ⟨p, hp, hop⟩) | hop) | ⟨_, ⟨m, -, rfl⟩, hop⟩ | hop
  · exact congrArg (Option.map _) h
  · exact hclear (hnames p hp) op hop
  · exact hclear hupdated op hop
  · rw [metricTriple_toJson, List.mem_flatMap] at hop
    obtain ⟨predicate, hpredicate, hop⟩ := hop
    exact hinsert (hnames _ (lookup_metricPredicates.mp (Option.mem_toList.mp hpredicate))) op hop
  · exact hinsert hupdated op hop

theorem put_mem_writeMetrics {p : String × String} (hp : p ∈ metricPredicates) {now : ℤ} {o : Term} :
    Op.put (quad nodeIri.value (pc p.2) o .default) ∈ writeMetrics env nodeIri now metrics ↔
      ∃ m ∈ metrics, m.name = p.1 ∧ o = metricTerm env m.value := by
  have hupdated : p.2 ≠ "metricsUpdatedAt" :=
    (by decide : ∀ p ∈ metricPredicates, p.2 ≠ "metricsUpdatedAt") p hp
  simp only [writeMetrics, List.mem_append, List.mem_flatMap, List.mem_map, exists_exists_and_eq_and,
    metricTriple_toJson, put_mem_insertTriple, Option.mem_toList, lookup_metricPredicates, quad, Quad.mk.injEq,
    NamedNode.mk.injEq, pc_inj, true_and, and_true, hupdated, false_and, or_false]
  constructor
  · rintro ⟨m, hm, predicate, hpredicate, hname, rfl⟩
    exact ⟨m, hm, congrArg Prod.fst (metricPredicates_inj _ hpredicate p hp hname.symm), rfl⟩
  · rintro ⟨m, hm, hname, rfl⟩
    exact ⟨m, hm, p.2, by rwa [hname], rfl, rfl⟩

/-- After an event the graph holds the metrics that it mentions, and no others. -/
theorem holdsMetrics_projected (iris : IriBuilder) (draw : EmissionDraw) (h : env.checks.iri nodeIri.value = none)
    (hmetrics : (metrics.map fun m => m.name).Nodup) (s : Store) :
    HoldsMetrics env nodeIri (valueIn metrics)
      (projected env s (metricRecorded iris nodeIri draw metrics)) := by
  intro p hp o
  rw [(projectStore_ops s script_metricRecorded).2, Has,
    mem_runOps_append (runOps_ok_of_error (error_metricRecorded h) s) (by simp [forgetMetrics, clearInDefault])
      (by simp [writeMetrics, metricTriple_toJson]), put_mem_writeMetrics hp]
  -- every earlier value is forgotten
  have hforgotten : Op.del (valuesOf nodeIri.value (pc p.2) (some .default)) ∈ forgetMetrics nodeIri := by
    refine List.mem_append_left _ (List.mem_cons_of_mem _ (List.mem_flatMap.mpr ⟨p, hp, ?_⟩))
    simp [clearInDefault]
  have hgone : ¬ (quad nodeIri.value (pc p.2) o .default ∈ s ∧ ∀ pattern, Op.del pattern ∈ forgetMetrics nodeIri →
      pattern.matches (quad nodeIri.value (pc p.2) o .default) = false) := by
    rintro ⟨-, hkept⟩
    have hmatches : (valuesOf nodeIri.value (pc p.2) (some .default)).matches
        (quad nodeIri.value (pc p.2) o .default) = true := valuesOf_matches_iff.mpr ⟨rfl, rfl, rfl⟩
    rw [hkept _ hforgotten] at hmatches
    exact absurd hmatches (by decide)
  rw [or_iff_right hgone]
  simp only [valueIn_eq_some_iff hmetrics]
  constructor
  · rintro ⟨m, hm, hname, rfl⟩
    exact ⟨m.value, ⟨m, hm, hname, rfl⟩, rfl⟩
  · rintro ⟨_, ⟨m, hm, hname, rfl⟩, rfl⟩
    exact ⟨m, hm, hname, rfl⟩

end Event

/-! ## Whole histories -/

section History

variable {env : ProjectorEnv} {ops : MeanOps} {iris : IriBuilder} {nodeIri : ResourceIri}

theorem latestValue_append_singleton (history : List (List RecordedMetric)) (metrics : List RecordedMetric)
    (name : String) : latestValue (history ++ [metrics]) name =
      (valueIn metrics name).or (latestValue history name) := by
  rw [latestValue, List.foldl_append]
  rfl

/-- A metric has a last value if it was ever mentioned. -/
theorem latestValue_eq_none_iff {history : List (List RecordedMetric)} {name : String} :
    latestValue history name = none ↔ ∀ metrics ∈ history, ¬ Mentions metrics name := by
  induction history using List.reverseRecOn with
  | nil => simp [latestValue]
  | append_singleton history metrics ih =>
    rw [latestValue_append_singleton, Option.or_eq_none_iff, ih, valueIn_eq_none_iff]
    simp only [List.mem_append, List.mem_singleton, or_imp, forall_and, forall_eq]
    exact and_comm

/-- **The graph holds the latest value of each metric exactly when the last event mentions every metric that
any event mentions.** The rounds of the agent and of the aggregator follow each other in any order. -/
theorem holdsLatest_iff (hnode : env.checks.iri nodeIri.value = none) (p : Projector)
    (hfresh : ∀ q ∈ metricPredicates, ∀ o, ¬ Has p.store nodeIri.value q.2 o)
    (rounds : List (EmissionDraw × MetricRound)) :
    HoldsMetrics env nodeIri (latestValue ((reported ops rounds).map Prod.snd))
        (p.projectEach env (emittedMetrics ops iris nodeIri rounds)).store ↔
      ∀ last ∈ ((reported ops rounds).map Prod.snd).getLast?, ∀ q ∈ metricPredicates,
        ∀ metrics ∈ (reported ops rounds).map Prod.snd, Mentions metrics q.1 → Mentions last q.1 := by
  rw [Projector.store_projectEach, emittedMetrics]
  rcases List.eq_nil_or_concat' (reported ops rounds) with hnil | ⟨before, r, hrounds⟩
  · simpa [hnil, HoldsMetrics, latestValue] using fun a b hp => hfresh (a, b) hp
  · have hnodup : (r.2.map fun m => m.name).Nodup :=
      nodup_names_reported ops (hrounds ▸ List.mem_append_right before List.mem_cons_self)
    have hholds := holdsMetrics_projected iris r.1 hnode hnodup
      ((before.map fun r => metricRecorded iris nodeIri r.1 r.2).foldl (projected env) p.store)
    simp only [hrounds, List.map_append, List.foldl_append, List.map_singleton, List.foldl_cons, List.foldl_nil,
      List.getLast?_concat, Option.mem_some_iff, forall_eq']
    constructor
    · intro hlatest q hq metrics hmetrics hmention
      by_contra hnot
      obtain ⟨bits, hbits⟩ : ∃ bits, latestValue (before.map Prod.snd ++ [r.2]) q.1 = some bits := by
        refine Option.ne_none_iff_exists'.mp fun hnone => ?_
        exact latestValue_eq_none_iff.mp hnone metrics hmetrics hmention
      -- the last event has taken the value away
      obtain ⟨bits', hvalue, -⟩ := (hholds q hq _).mp ((hlatest q hq _).mpr ⟨bits, hbits, rfl⟩)
      rw [valueIn_eq_none_iff.mpr hnot] at hvalue
      cases hvalue
    · intro hmentions q hq o
      rw [hholds q hq o, latestValue_append_singleton]
      by_cases hmention : Mentions r.2 q.1
      · obtain ⟨bits, hbits⟩ := Option.ne_none_iff_exists'.mp (mt valueIn_eq_none_iff.mp (not_not_intro hmention))
        rw [hbits, Option.some_or]
      · have hnone : latestValue (before.map Prod.snd) q.1 = none :=
          latestValue_eq_none_iff.mpr fun metrics hmetrics h =>
            hmention (hmentions q hq metrics (List.mem_append_left _ hmetrics) h)
        rw [valueIn_eq_none_iff.mpr hmention, hnone, Option.none_or]

end History

/-! ## The agent and the aggregator -/

/-- A reading of the processor alone. -/
def cpuReadings : SystemReadings := ⟨some 4631107791820423168, none, none, none⟩

/-- A metric of a workload. -/
def requestRecord : MetricRecord := ⟨"http_requests", 4607182418800017408, "1", "sum", "shop", 0, .null⟩

/-- Operations for windows of one record. -/
def lastOps : MeanOps := ⟨0, fun _ value => value, fun sum _ => sum⟩

/-- The agent reports twice. -/
def agentRounds : List (EmissionDraw × MetricRound) :=
  [(⟨1, 2, 0⟩, .agent cpuReadings), (⟨3, 4, 15⟩, .agent cpuReadings)]

/-- The agent reports the processor, and the aggregator then a metric of a workload. -/
def mixedRounds : List (EmissionDraw × MetricRound) :=
  [(⟨1, 2, 0⟩, .agent cpuReadings), (⟨3, 4, 15⟩, .aggregator [requestRecord])]

theorem reported_agentRounds : reported lastOps agentRounds =
    [(⟨1, 2, 0⟩, [⟨⟨"cpu_usage_percent", 4631107791820423168⟩, "percent"⟩]),
      (⟨3, 4, 15⟩, [⟨⟨"cpu_usage_percent", 4631107791820423168⟩, "percent"⟩])] := rfl

theorem reported_mixedRounds : reported lastOps mixedRounds =
    [(⟨1, 2, 0⟩, [⟨⟨"cpu_usage_percent", 4631107791820423168⟩, "percent"⟩]),
      (⟨3, 4, 15⟩, [⟨⟨"http_requests", 4607182418800017408⟩, "1"⟩])] := by
  have hworkload : aggregateOtelMetrics lastOps [requestRecord] =
      [⟨⟨"http_requests", 4607182418800017408⟩, "1"⟩] := List.mergeSort_singleton _
  simp only [reported, mixedRounds, List.map_cons, List.map_nil, MetricRound.metrics, hworkload]
  rfl

/-- As long as only the agent reports, and reads the same metrics, they stay. -/
theorem holdsLatest_agentRounds : HoldsMetrics plainEnv ⟨"https://picloud.local/nodes/a"⟩
    (latestValue ((reported lastOps agentRounds).map Prod.snd))
    (Projector.new.projectEach plainEnv
      (emittedMetrics lastOps ⟨"picloud.local"⟩ ⟨"https://picloud.local/nodes/a"⟩ agentRounds)).store := by
  refine (holdsLatest_iff rfl Projector.new (by simp [Projector.new]) agentRounds).mpr ?_
  rw [reported_agentRounds]
  simp [Mentions]

/-- The event of the aggregator takes the reading of the processor out of the graph. -/
theorem not_holdsLatest_mixedRounds : ¬ HoldsMetrics plainEnv ⟨"https://picloud.local/nodes/a"⟩
    (latestValue ((reported lastOps mixedRounds).map Prod.snd))
    (Projector.new.projectEach plainEnv
      (emittedMetrics lastOps ⟨"picloud.local"⟩ ⟨"https://picloud.local/nodes/a"⟩ mixedRounds)).store := by
  intro hlatest
  have hempty : (Projector.new.projectEach plainEnv
      (emittedMetrics lastOps ⟨"picloud.local"⟩ ⟨"https://picloud.local/nodes/a"⟩ mixedRounds)).store.all
        (fun q => q.predicate ≠ ⟨pc "cpuUsagePercent"⟩) = true := by
    rw [Projector.store_projectEach, emittedMetrics, reported_mixedRounds]
    decide +kernel
  have hcpu := (hlatest ("cpu_usage_percent", "cpuUsagePercent") (by decide)
    (metricTerm plainEnv 4631107791820423168)).mpr
      ⟨4631107791820423168, by rw [reported_mixedRounds]; decide +kernel, rfl⟩
  exact absurd rfl (of_decide_eq_true (List.all_eq_true.mp hempty _ hcpu))

end Picloud
