import Picloud.Telemetry.Records

/-!
# The two telemetry stores

Reference: `write_spans`, `write_metrics`, `query_spans` and `query_metrics` of
`ParquetTelemetryStore` and `JsonlTelemetryStore`.

The Parquet store numbers its part files by a counter in memory, one for all partitions and both
signals, and creates a file over one that is there. The JSON-lines store appends to one file for each
hour.
-/

namespace Picloud

open Lib

/-! ## Part files -/

/-- The part files of a signal, by the name of their partition and their own. -/
abbrev PartFiles (σ : Signal) := Assoc (String × String) σ.parquet.Content

/-- `format!("part-{n:04}.parquet")`. -/
def partName (n : UInt32) : String :=
  "part-" ++ String.ofList ((toString n.toNat).toList.leftpad 4 '0') ++ ".parquet"

/-- `path.extension()` of a file name. -/
def extension (name : String) : Option String :=
  if name.toList.rdropWhile (· ≠ '.') = [] ∨ name.toList.rdropWhile (· ≠ '.') = ['.'] then none
  else some (String.ofList (name.toList.rtakeWhile (· ≠ '.')))

section Parts

variable {σ : Signal} (env : TelemetryEnv)

/-- The partitions of a batch, in the order in which they are written. -/
def partitionsOf (records : List σ.Record) : List String :=
  env.iterate ((records.map fun r => partitionKey (σ.time r)).dedup)

/-- The records of a batch in one partition. -/
def inPartition (records : List σ.Record) (key : String) : List σ.Record :=
  records.filter fun r => partitionKey (σ.time r) = key

/-- `write_parquet`: the next part file of a partition. -/
def writeParquet (key : String) (records : List σ.Record) (files : PartFiles σ) (counter : UInt32) :
    PartFiles σ × UInt32 :=
  (Assoc.set files (key, partName counter) (σ.parquet.encode (records.map σ.row)), counter + 1)

/-- The loop over the partitions of a batch. -/
def writePartitions (records : List σ.Record) :
    List String → PartFiles σ → UInt32 → PartFiles σ × UInt32
  | [], files, counter => (files, counter)
  | key :: keys, files, counter =>
    let (files, counter) := writeParquet key (inPartition records key) files counter
    writePartitions records keys files counter

/-- The body of `write_spans` and of `write_metrics`. -/
def writeRecords (records : List σ.Record) (files : PartFiles σ) (counter : UInt32) :
    PartFiles σ × UInt32 :=
  if records.isEmpty then (files, counter)
  else writePartitions records (partitionsOf env records) files counter

/-- The order of paths. -/
def pathLe (a b : String × String) : Bool :=
  a.1.toList < b.1.toList || (a.1 = b.1 && !(b.2.toList < a.2.toList))

/-- `partition_files_in_range`. -/
def partitionFilesInRange (files : PartFiles σ) (start stop : ℤ) :
    List ((String × String) × σ.parquet.Content) :=
  (files.filter fun f => !(f.1.1.toList < (partitionKey start).toList) &&
    !((partitionKey stop).toList < f.1.1.toList) && extension f.1.2 = some "parquet").mergeSort
      fun f g => pathLe f.1 g.1

/-- `read_spans_from_parquet` and `read_metrics_from_parquet`. -/
def readParquet (content : σ.parquet.Content) : Except String (List σ.Record) :=
  (σ.parquet.decode content).map (List.map σ.ofRow)

/-- `query_spans` and `query_metrics`: a file that cannot be read is passed over. -/
def queryParts (files : PartFiles σ) (start stop : ℤ) (filter : TelemetryFilter) : List σ.Record :=
  ((partitionFilesInRange files start stop).flatMap fun f =>
    match readParquet f.2 with
    | .ok records => records
    | .error _ => []).filter (σ.accepts start stop filter)

end Parts

/-- `ParquetTelemetryStore`: the files under its base path, and its counter. -/
structure ParquetTelemetryStore (env : TelemetryEnv) where
  traces : PartFiles env.spans
  metrics : PartFiles env.metrics
  partCounter : UInt32

namespace ParquetTelemetryStore

variable {env : TelemetryEnv}

/-- `ParquetTelemetryStore::new` on the files that are there. -/
def new (traces : PartFiles env.spans) (metrics : PartFiles env.metrics) :
    ParquetTelemetryStore env := ⟨traces, metrics, 1⟩

/-- `write_spans`. -/
def writeSpans (store : ParquetTelemetryStore env) (spans : List SpanRecord) :
    ParquetTelemetryStore env :=
  let out := writeRecords env spans store.traces store.partCounter
  { store with traces := out.1, partCounter := out.2 }

/-- `write_metrics`. -/
def writeMetrics (store : ParquetTelemetryStore env) (metrics : List MetricRecord) :
    ParquetTelemetryStore env :=
  let out := writeRecords env metrics store.metrics store.partCounter
  { store with metrics := out.1, partCounter := out.2 }

/-- `query_spans`. -/
def querySpans (store : ParquetTelemetryStore env) (start stop : ℤ) (filter : TelemetryFilter) :
    List SpanRecord := queryParts store.traces start stop filter

/-- `query_metrics`. -/
def queryMetrics (store : ParquetTelemetryStore env) (start stop : ℤ) (filter : TelemetryFilter) :
    List MetricRecord := queryParts store.metrics start stop filter

end ParquetTelemetryStore

/-! ## JSON lines -/

/-- The files of a signal, by their names. -/
abbrev LineFiles := Assoc String Bytes

section Lines

variable {σ : Signal}

/-- `file_path`. -/
def filePath (t : ℤ) : String := hourKey t ++ ".jsonl"

/-- `append_line`. -/
def appendLine (files : LineFiles) (path text : String) : LineFiles :=
  Assoc.set files path ((Assoc.get files path).getD [] ++ line text)

/-- The body of `write_spans` and of `write_metrics`: it ends at a record that has no JSON text. -/
def writeLines (σ : Signal) : List σ.Record → LineFiles → Except String Unit × LineFiles
  | [], files => (.ok (), files)
  | r :: records, files =>
    match σ.json.toString r with
    | .error e => (.error e, files)
    | .ok text => writeLines σ records (appendLine files (filePath (σ.time r)) text)

/-- A final carriage return does not belong to a line. -/
def stripCr (s : String) : String :=
  if s.toList.getLast? = some '\r' then String.ofList s.toList.dropLast else s

/-- One line of a file: blank lines and malformed ones are passed over. -/
def readLine (σ : Signal) (bytes : Bytes) : Option σ.Record :=
  (ofUtf8 bytes).bind fun text =>
    if trim (stripCr text) = "" then none else (σ.json.fromStr (stripCr text)).toOption

/-- The records of a file that is a text. -/
def readFile (σ : Signal) (content : Bytes) : List σ.Record :=
  if (ofUtf8 content).isSome then (lines content).filterMap (readLine σ) else []

/-- The hours that `read_range` goes through: those that begin by `stop`, from the one of `start`. -/
def hoursInRange (start stop : ℤ) : List ℤ :=
  let first := start / hourNanos * hourNanos
  (List.range (((stop - first) / hourNanos + 1).toNat)).map fun i : ℕ => first + i * hourNanos

/-- `read_range`. -/
def readRange (σ : Signal) (files : LineFiles) (start stop : ℤ) : List σ.Record :=
  (hoursInRange start stop).flatMap fun current =>
    match Assoc.get files (filePath current) with
    | some content => readFile σ content
    | none => []

/-- `query_spans` and `query_metrics`. -/
def queryLines (σ : Signal) (files : LineFiles) (start stop : ℤ) (filter : TelemetryFilter) :
    List σ.Record :=
  (readRange σ files start stop).filter (σ.accepts start stop filter)

end Lines

/-- `JsonlTelemetryStore`: the files under its base path. -/
structure JsonlTelemetryStore where
  spans : LineFiles
  metrics : LineFiles

namespace JsonlTelemetryStore

variable (env : TelemetryEnv)

/-- `write_spans`. -/
def writeSpans (store : JsonlTelemetryStore) (spans : List SpanRecord) :
    Except String Unit × JsonlTelemetryStore :=
  let out := writeLines env.spans spans store.spans
  (out.1, { store with spans := out.2 })

/-- `write_metrics`. -/
def writeMetrics (store : JsonlTelemetryStore) (metrics : List MetricRecord) :
    Except String Unit × JsonlTelemetryStore :=
  let out := writeLines env.metrics metrics store.metrics
  (out.1, { store with metrics := out.2 })

/-- `query_spans`. -/
def querySpans (store : JsonlTelemetryStore) (start stop : ℤ) (filter : TelemetryFilter) :
    List SpanRecord := queryLines env.spans store.spans start stop filter

/-- `query_metrics`. -/
def queryMetrics (store : JsonlTelemetryStore) (start stop : ℤ) (filter : TelemetryFilter) :
    List MetricRecord := queryLines env.metrics store.metrics start stop filter

end JsonlTelemetryStore

end Picloud
