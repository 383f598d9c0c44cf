import Picloud.Telemetry.Stores
import Picloud.Lib.Steps
import Mathlib.Data.List.Dedup
import Mathlib.Data.List.Perm.Basic

/-!
# Telemetry written is telemetry read

A record lies in the partition of its hour, and a query reads the partitions of its range. The
JSON-lines store loses nothing. The Parquet store loses nothing as long as no part file is written
over: its counter starts again with every process.
-/

namespace Picloud

open Lib

/-! ## Grouping -/

/-- Grouping by a list of keys loses nothing when every key is in it, once. -/
theorem flatMap_filter_perm {α β : Type*} [DecidableEq β] (key : α → β) {keys : List β}
    (hkeys : keys.Nodup) {records : List α} (h : ∀ r ∈ records, key r ∈ keys) :
    (keys.flatMap fun k => records.filter fun r => key r = k).Perm records := by
  induction keys generalizing records with
  | nil =>
    cases records with
    | nil => exact List.Perm.refl _
    | cons r records => exact absurd (h r List.mem_cons_self) List.not_mem_nil
  | cons k keys ih =>
    obtain ⟨hk, hkeys⟩ := List.nodup_cons.mp hkeys
    have hrest : (keys.flatMap fun k' => records.filter fun r => key r = k') =
        keys.flatMap fun k' => (records.filter fun r => !decide (key r = k)).filter
          fun r => key r = k' := by
      refine List.flatMap_congr fun k' hk' => ?_
      rw [List.filter_filter]
      refine List.filter_congr fun r _ => ?_
      have hne : k' ≠ k := fun heq => hk (heq ▸ hk')
      by_cases hr : key r = k'
      · simp [hr, hne]
      · simp [hr]
    rw [List.flatMap_cons, hrest]
    refine ((ih hkeys fun r hr => ?_).append_left _).trans (List.filter_append_perm _ records)
    obtain ⟨hmem, hne⟩ := List.mem_filter.mp hr
    exact (List.mem_cons.mp (h r hmem)).resolve_left (by simpa using hne)

/-- Leaving out what contributes nothing. -/
theorem flatMap_filter_of_nil {α β : Type*} {p : α → Bool} {f g : α → List β} {l : List α}
    (hf : ∀ a ∈ l, p a = true → f a = g a) (hg : ∀ a ∈ l, p a = false → g a = []) :
    (l.filter p).flatMap f = l.flatMap g := by
  induction l with
  | nil => rfl
  | cons a l ih =>
    have hrest := ih (fun b hb => hf b (List.mem_cons_of_mem a hb))
      fun b hb => hg b (List.mem_cons_of_mem a hb)
    rw [List.filter_cons, List.flatMap_cons, ← hrest]
    split
    · rw [List.flatMap_cons, hf a List.mem_cons_self ‹_›]
    · rw [hg a List.mem_cons_self (Bool.eq_false_iff.mpr ‹_›), List.nil_append]

/-! ## Hours -/

variable {s t : ℤ}

theorem hourOf_mono (h : s ≤ t) : hourOf s ≤ hourOf t := by
  unfold hourOf
  have := Int.ediv_le_ediv (c := hourNanos) (by decide) h
  omega

/-- Partitions are ordered as their hours. -/
theorem partitionKey_lt_iff (hs : InYears s) (ht : InYears t) :
    (partitionKey s).toList < (partitionKey t).toList ↔ hourOf s < hourOf t := by
  obtain ⟨hs0, hs1⟩ := hs
  obtain ⟨ht0, ht1⟩ := ht
  rw [partitionKey, partitionKey, String.toList_ofList, String.toList_ofList,
    hourText_lt_iff (by omega) (by omega)]
  omega

theorem filePath_inj (hs : InYears s) (ht : InYears t) (h : filePath s = filePath t) :
    hourOf s = hourOf t := by
  obtain ⟨hs0, hs1⟩ := hs
  obtain ⟨ht0, ht1⟩ := ht
  have hlist := congrArg String.toList h
  simp only [filePath, hourKey, String.toList_append, String.toList_ofList,
    List.append_left_inj] at hlist
  have := hourText_inj (by omega) (by omega) hlist
  omega

theorem filePath_congr (h : hourOf s = hourOf t) : filePath s = filePath t := by
  rw [filePath, filePath, hourKey, hourKey, h]

/-! ## Part files -/

theorem extension_append {stem ext : String} (hstem : stem.toList ≠ []) (hext : '.' ∉ ext.toList) :
    extension (stem ++ "." ++ ext) = some ext := by
  have hne : ∀ c ∈ ext.toList.reverse, decide (c ≠ '.') = true := by
    intro c hc
    simpa using fun heq : c = '.' => hext (heq ▸ List.mem_reverse.mp hc)
  have hlist : (stem ++ "." ++ ext).toList = stem.toList ++ ['.'] ++ ext.toList := by simp
  have hdrop : (stem ++ "." ++ ext).toList.rdropWhile (· ≠ '.') = stem.toList ++ ['.'] := by
    rw [hlist, List.rdropWhile, List.reverse_append, List.dropWhile_append_of_pos hne]
    simp
  have htake : (stem ++ "." ++ ext).toList.rtakeWhile (· ≠ '.') = ext.toList := by
    rw [hlist, List.rtakeWhile, List.reverse_append, List.takeWhile_append_of_pos hne]
    simp
  rw [extension, hdrop, htake, if_neg, String.ofList_toList]
  simp [hstem]

theorem extension_partName (n : UInt32) : extension (partName n) = some "parquet" := by
  have hname : partName n =
      "part-" ++ String.ofList ((toString n.toNat).toList.leftpad 4 '0') ++ "." ++ "parquet" := by
    rw [partName, String.append_assoc, String.append_assoc, String.append_assoc]
    rfl
  rw [hname]
  exact extension_append (by simp) (by decide)

section Parts

variable {σ : Signal} {env : TelemetryEnv} {files : PartFiles σ} {counter : UInt32}
  {records written : List σ.Record}

/-- The part files hold the records, each in a file of its partition. -/
def Holds (files : PartFiles σ) (written : List σ.Record) : Prop :=
  ∃ groups : List ((String × String) × List σ.Record),
    files = groups.map (fun g => (g.1, σ.parquet.encode (g.2.map σ.row))) ∧
    (∀ g ∈ groups, extension g.1.2 = some "parquet" ∧
      ∀ r ∈ g.2, partitionKey (σ.time r) = g.1.1) ∧
    (groups.flatMap Prod.snd).Perm written

/-- None of the part files that a batch is written to is there. -/
def PartsFree (env : TelemetryEnv) (files : PartFiles σ) (counter : UInt32)
    (records : List σ.Record) : Prop :=
  ∀ i key, (partitionsOf env records)[i]? = some key →
    (key, partName (counter + UInt32.ofNat i)) ∉ Assoc.keys files

theorem holds_nil : Holds ([] : PartFiles σ) [] :=
  ⟨[], rfl, by simp, List.Perm.refl _⟩

theorem Holds.writeParquet {key : String}
    (hfree : (key, partName counter) ∉ Assoc.keys files) (hrecords : ∀ r ∈ records,
      partitionKey (σ.time r) = key) (h : Holds files written) :
    Holds (writeParquet key records files counter).1 (records ++ written) := by
  obtain ⟨groups, rfl, hgroups, hperm⟩ := h
  refine ⟨((key, partName counter), records) :: groups, ?_, ?_, hperm.append_left records⟩
  · rw [Picloud.writeParquet, Assoc.set, Assoc.erase_of_notMem hfree, List.map_cons]
  · intro g hg
    rcases List.mem_cons.mp hg with rfl | hg
    · exact ⟨extension_partName counter, hrecords⟩
    · exact hgroups g hg

theorem Holds.perm {written' : List σ.Record} (h : Holds files written)
    (hperm : written.Perm written') : Holds files written' := by
  obtain ⟨groups, hfiles, hgroups, hw⟩ := h
  exact ⟨groups, hfiles, hgroups, hw.trans hperm⟩

theorem Holds.writePartitions {keys : List String} (hkeys : keys.Nodup)
    (hfree : ∀ i key, keys[i]? = some key →
      (key, partName (counter + UInt32.ofNat i)) ∉ Assoc.keys files)
    (h : Holds files written) :
    Holds (writePartitions records keys files counter).1
      (keys.flatMap (inPartition records) ++ written) := by
  induction keys generalizing files counter written with
  | nil => exact h
  | cons key keys ih =>
    obtain ⟨hkey, hkeys⟩ := List.nodup_cons.mp hkeys
    have hfirst : (key, partName counter) ∉ Assoc.keys files := by
      have hzero := hfree 0 key rfl
      rwa [show counter + UInt32.ofNat 0 = counter from UInt32.add_zero counter] at hzero
    have hown : ∀ r ∈ inPartition records key, partitionKey (σ.time r) = key :=
      fun r hr => of_decide_eq_true (List.mem_filter.mp hr).2
    have hmid := h.writeParquet hfirst hown
    refine (ih hkeys (fun i key' hi => ?_) hmid).perm ?_
    · -- the later files are of other partitions
      have hold := hfree (i + 1) key' hi
      have hcounter : counter + UInt32.ofNat (i + 1) = counter + 1 + UInt32.ofNat i := by
        rw [UInt32.ofNat_add, UInt32.add_comm (UInt32.ofNat i), ← UInt32.add_assoc]
        rfl
      rw [hcounter] at hold
      intro hmem
      rcases List.mem_map.mp hmem with ⟨f, hf, hfkey⟩
      rcases Assoc.mem_set.mp hf with rfl | ⟨hf, -⟩
      · have hsame : key = key' := (Prod.mk.inj hfkey).1
        exact hkey (hsame ▸ List.mem_of_getElem? hi)
      · exact hold (hfkey ▸ List.mem_map_of_mem hf)
    · rw [List.flatMap_cons, ← List.append_assoc]
      exact List.perm_append_comm.append_right written

/-- A batch that writes over nothing is added. -/
theorem Holds.writeRecords (hfree : PartsFree env files counter records) (h : Holds files written) :
    Holds (writeRecords env records files counter).1 (written ++ records) := by
  unfold Picloud.writeRecords
  by_cases hempty : records.isEmpty
  · rw [if_pos hempty, List.isEmpty_iff.mp hempty, List.append_nil]
    exact h
  · rw [if_neg hempty]
    have hperm := env.iterate_perm ((records.map fun r => partitionKey (σ.time r)).dedup)
    have hkeys : (partitionsOf env records).Nodup := hperm.nodup_iff.mpr (List.nodup_dedup _)
    have hmem : ∀ r ∈ records, partitionKey (σ.time r) ∈ partitionsOf env records := fun r hr =>
      hperm.mem_iff.mpr (List.mem_dedup.mpr (List.mem_map_of_mem hr))
    refine (Holds.writePartitions hkeys hfree h).perm ?_
    exact ((flatMap_filter_perm _ hkeys hmem).append_right written).trans List.perm_append_comm

/-- The records come back from their rows. -/
def RowsReturn (records : List σ.Record) : Prop := ∀ r ∈ records, σ.ofRow (σ.row r) = r

theorem readParquet_encode (h : RowsReturn records) :
    readParquet (σ.parquet.encode (records.map σ.row)) = .ok records := by
  have hrows : (records.map σ.row).map σ.ofRow = records := by
    rw [List.map_map]
    exact (List.map_congr_left h).trans (List.map_id records)
  rw [readParquet, σ.parquet.decode_encode, Except.map, hrows]

/-- The filter of a signal looks at the range first. -/
def InRange (σ : Signal) : Prop := ∀ start stop filter r, σ.accepts start stop filter r = true →
  start ≤ σ.time r ∧ σ.time r ≤ stop

/-- A query of part files that hold the records finds those that the filter accepts. -/
theorem Holds.query (h : Holds files written) (hrows : RowsReturn written) (hσ : InRange σ)
    (hyears : ∀ r ∈ written, InYears (σ.time r)) {start stop : ℤ} (hstart : InYears start)
    (hstop : InYears stop) (filter : TelemetryFilter) :
    (queryParts files start stop filter).Perm (written.filter (σ.accepts start stop filter)) := by
  obtain ⟨groups, rfl, hgroups, hperm⟩ := h
  have hof : ∀ g ∈ groups, ∀ r ∈ g.2, r ∈ written := fun g hg r hr =>
    hperm.mem_iff.mp (List.mem_flatMap.mpr ⟨g, hg, hr⟩)
  unfold queryParts partitionFilesInRange
  refine List.Perm.trans (((List.mergeSort_perm _ _).flatMap_right _).filter _) ?_
  refine List.Perm.trans (List.Perm.of_eq ?_) (hperm.filter _)
  rw [List.filter_map, List.flatMap_map, List.filter_flatMap, List.filter_flatMap]
  refine flatMap_filter_of_nil (fun g hg _ => ?_) fun g hg hout => ?_
  · rw [readParquet_encode fun r hr => hrows r (hof g hg r hr)]
  · -- an accepted record is in a partition of the range
    refine List.filter_eq_nil_iff.mpr fun r hr hacc => Bool.eq_false_iff.mp hout ?_
    obtain ⟨hext, hkey⟩ := hgroups g hg
    obtain ⟨hle, hge⟩ := hσ start stop filter r hacc
    have hr' := hyears r (hof g hg r hr)
    have hlow := mt (partitionKey_lt_iff hr' hstart).mp (not_lt.mpr (hourOf_mono hle))
    have hhigh := mt (partitionKey_lt_iff hstop hr').mp (not_lt.mpr (hourOf_mono hge))
    rw [hkey r hr] at hlow hhigh
    simp [hlow, hhigh, hext]

end Parts

/-! ## JSON lines -/

section Lines

variable {σ : Signal} {files : LineFiles} {records written : List σ.Record}

/-- The lines of some records. -/
def renderLines (σ : Signal) (records : List σ.Record) : Bytes :=
  records.flatMap fun r => line (σ.json.text r)

/-- Every file holds the lines of the records of its hour, in order. -/
def LinesHold (files : LineFiles) (written : List σ.Record) : Prop :=
  ∀ path, (Assoc.get files path).getD [] =
    renderLines σ (written.filter fun r => filePath (σ.time r) = path)

theorem linesHold_nil : LinesHold (σ := σ) [] [] := fun _ => rfl

theorem LinesHold.writeLines (hw : ∀ r ∈ records, σ.json.Writes r) (h : LinesHold files written) :
    (writeLines σ records files).1 = .ok () ∧
      LinesHold (writeLines σ records files).2 (written ++ records) := by
  induction records generalizing files written with
  | nil => exact ⟨rfl, by rwa [List.append_nil]⟩
  | cons r records ih =>
    have hr := (hw r List.mem_cons_self).toString_eq
    have hnext : LinesHold (appendLine files (filePath (σ.time r)) (σ.json.text r))
        (written ++ [r]) := by
      intro path
      by_cases hpath : path = filePath (σ.time r)
      · subst hpath
        rw [appendLine, Assoc.get_set_self, Option.getD_some, h, List.filter_append, renderLines,
          renderLines, List.flatMap_append]
        simp
      · rw [appendLine, Assoc.get_set_of_ne _ _ hpath, h, List.filter_append]
        simp [Ne.symm hpath]
    obtain ⟨hok, hhold⟩ := ih (fun r' hr' => hw r' (List.mem_cons_of_mem r hr')) hnext
    rw [List.append_assoc, List.singleton_append] at hhold
    rw [Picloud.writeLines, hr]
    exact ⟨hok, hhold⟩

theorem stripCr_of_isLine {s : String} (h : IsLine s) : stripCr s = s := by
  refine if_neg fun hlast => ?_
  -- a trimmed text does not end in white space
  have htrim : trimChars s.toList = s.toList := by
    have := congrArg String.toList h.2.1
    rwa [trim, String.toList_ofList] at this
  have hback : (s.toList.dropWhile isWhitespace).rdropWhile isWhitespace = s.toList := htrim
  have hne : (s.toList.dropWhile isWhitespace).rdropWhile isWhitespace ≠ [] := by
    rw [hback]
    rintro hnil
    simp [hnil] at hlast
  have hcr := List.rdropWhile_last_not isWhitespace _ hne
  have hget : ((s.toList.dropWhile isWhitespace).rdropWhile isWhitespace).getLast hne = '\r' := by
    apply Option.some.inj
    rw [← List.getLast?_eq_some_getLast hne, hback, hlast]
  rw [hget] at hcr
  exact hcr (by decide)

theorem readLine_text {r : σ.Record} (h : σ.json.Writes r) :
    readLine σ (utf8 (σ.json.text r)) = some r := by
  have hline := σ.json.isLine h.toString_eq
  rw [readLine, ofUtf8_utf8, Option.bind_some, stripCr_of_isLine hline, hline.2.1,
    if_neg hline.2.2, σ.json.fromStr_toString h.toString_eq]
  rfl

/-- A written file is a text. -/
theorem renderLines_isText (records : List σ.Record) :
    ∃ s, utf8 s = renderLines σ records := by
  induction records with
  | nil => exact ⟨"", rfl⟩
  | cons r records ih =>
    obtain ⟨s, hs⟩ := ih
    refine ⟨σ.json.text r ++ "\n" ++ s, ?_⟩
    rw [utf8_append, utf8_append, hs]
    rfl

theorem readFile_renderLines (hw : ∀ r ∈ records, σ.json.Writes r) :
    readFile σ (renderLines σ records) = records := by
  obtain ⟨s, hs⟩ := renderLines_isText records
  rw [readFile, ← hs, ofUtf8_utf8, Option.isSome_some, if_pos rfl, hs]
  clear s hs
  induction records with
  | nil => rfl
  | cons r records ih =>
    have hr := hw r List.mem_cons_self
    have hcons : renderLines σ (r :: records) = line (σ.json.text r) ++ renderLines σ records := rfl
    rw [hcons, lines_line_append (σ.json.isLine hr.toString_eq).1, List.filterMap_cons,
      readLine_text hr]
    exact congrArg (r :: ·) (ih fun r' hr' => hw r' (List.mem_cons_of_mem r hr'))

theorem readRange_eq (h : LinesHold files written) (hw : ∀ r ∈ written, σ.json.Writes r)
    (start stop : ℤ) : readRange σ files start stop =
      (hoursInRange start stop).flatMap fun current =>
        written.filter fun r => filePath (σ.time r) = filePath current := by
  refine List.flatMap_congr fun current _ => ?_
  have hfile := readFile_renderLines (σ := σ)
    (fun r hr => hw r (List.mem_of_mem_filter hr) : ∀ r ∈ written.filter fun r =>
      filePath (σ.time r) = filePath current, σ.json.Writes r)
  rw [← h (filePath current)] at hfile
  cases hget : Assoc.get files (filePath current) with
  | none =>
    rw [hget] at hfile
    exact hfile
  | some content =>
    rw [hget] at hfile
    exact hfile

/-- The hours of a range, by their numbers. -/
theorem hourOf_of_index (start : ℤ) (i : ℕ) :
    hourOf (start / hourNanos * hourNanos + i * hourNanos) = hourOf start + i := by
  unfold hourOf
  rw [← add_mul, Int.mul_ediv_cancel _ (by decide)]
  ring

theorem lt_hours_iff (start stop : ℤ) (i : ℕ) :
    i < ((stop - start / hourNanos * hourNanos) / hourNanos + 1).toNat ↔
      hourOf start + i ≤ hourOf stop := by
  have hdiv : (stop - start / hourNanos * hourNanos) / hourNanos =
      stop / hourNanos - start / hourNanos := by
    rw [sub_eq_add_neg, ← neg_mul, Int.add_mul_ediv_right _ _ (by decide), ← sub_eq_add_neg]
  rw [hdiv]
  unfold hourOf
  omega

variable {start stop : ℤ}

theorem inYears_of_index (hstart : InYears start) (hstop : InYears stop) {i : ℕ}
    (hi : hourOf start + i ≤ hourOf stop) :
    InYears (start / hourNanos * hourNanos + i * hourNanos) := by
  have := hstart.1
  have := hstop.2
  rw [InYears, hourOf_of_index]
  omega

/-- The hours of a range have files of their own. -/
theorem nodup_filePath_hours (hstart : InYears start) (hstop : InYears stop) :
    ((hoursInRange start stop).map filePath).Nodup := by
  unfold hoursInRange
  rw [List.map_map]
  refine List.Nodup.map_on (fun i hi j hj heq => ?_) List.nodup_range
  have hi' := (lt_hours_iff start stop i).mp (List.mem_range.mp hi)
  have hj' := (lt_hours_iff start stop j).mp (List.mem_range.mp hj)
  have hsame := filePath_inj (inYears_of_index hstart hstop hi') (inYears_of_index hstart hstop hj')
    heq
  rw [hourOf_of_index, hourOf_of_index] at hsame
  omega

/-- A time of the range has its file among them. -/
theorem filePath_mem_hours {t : ℤ} (hle : start ≤ t) (hge : t ≤ stop) :
    filePath t ∈ (hoursInRange start stop).map filePath := by
  have hlow := hourOf_mono hle
  have hhigh := hourOf_mono hge
  refine List.mem_map.mpr ⟨start / hourNanos * hourNanos + (hourOf t - hourOf start).toNat * hourNanos,
    ?_, filePath_congr ?_⟩
  · refine List.mem_map.mpr ⟨(hourOf t - hourOf start).toNat, List.mem_range.mpr ?_, rfl⟩
    exact (lt_hours_iff start stop _).mpr (by omega)
  · rw [hourOf_of_index]
    omega

/-- A query of files that hold the records finds those that the filter accepts. -/
theorem LinesHold.query (h : LinesHold files written) (hw : ∀ r ∈ written, σ.json.Writes r)
    (hσ : InRange σ) (hstart : InYears start) (hstop : InYears stop) (filter : TelemetryFilter) :
    (queryLines σ files start stop filter).Perm
      (written.filter (σ.accepts start stop filter)) := by
  rw [queryLines, readRange_eq h hw, List.filter_flatMap]
  have hswap : ((hoursInRange start stop).flatMap fun current =>
      (written.filter fun r => filePath (σ.time r) = filePath current).filter
        (σ.accepts start stop filter)) =
      ((hoursInRange start stop).map filePath).flatMap fun path =>
        (written.filter (σ.accepts start stop filter)).filter fun r =>
          filePath (σ.time r) = path := by
    rw [List.flatMap_map]
    refine List.flatMap_congr fun current _ => ?_
    rw [List.filter_filter, List.filter_filter]
    exact List.filter_congr fun r _ => Bool.and_comm _ _
  rw [hswap]
  refine flatMap_filter_perm (fun r => filePath (σ.time r)) (nodup_filePath_hours hstart hstop) ?_
  intro r hr
  obtain ⟨hle, hge⟩ := hσ start stop filter r (List.mem_filter.mp hr).2
  exact filePath_mem_hours hle hge

end Lines

/-! ## Runs -/

/-- A call to the stores, or a new process on the same files. -/
inductive TelemetryCall where
  | writeSpans (spans : List SpanRecord)
  | writeMetrics (metrics : List MetricRecord)
  | restart

/-- The spans of the calls. -/
def writtenSpans (calls : List TelemetryCall) : List SpanRecord :=
  calls.flatMap fun
    | .writeSpans spans => spans
    | _ => []

/-- The metrics of the calls. -/
def writtenMetrics (calls : List TelemetryCall) : List MetricRecord :=
  calls.flatMap fun
    | .writeMetrics metrics => metrics
    | _ => []

variable {env : TelemetryEnv}

/-- The Parquet store after a call. -/
def ParquetTelemetryStore.call (store : ParquetTelemetryStore env) :
    TelemetryCall → ParquetTelemetryStore env
  | .writeSpans spans => store.writeSpans spans
  | .writeMetrics metrics => store.writeMetrics metrics
  | .restart => .new store.traces store.metrics

/-- The JSON-lines store after a call. -/
def JsonlTelemetryStore.call (env : TelemetryEnv) (store : JsonlTelemetryStore) :
    TelemetryCall → JsonlTelemetryStore
  | .writeSpans spans => (store.writeSpans env spans).2
  | .writeMetrics metrics => (store.writeMetrics env metrics).2
  | .restart => store

/-- The call writes over no part file. -/
def WritesOverNothing (store : ParquetTelemetryStore env) : TelemetryCall → Prop
  | .writeSpans spans => PartsFree (σ := env.spans) env store.traces store.partCounter spans
  | .writeMetrics metrics => PartsFree (σ := env.metrics) env store.metrics store.partCounter metrics
  | .restart => True

/-- A span whose times are in the calendar and whose texts the libraries read back. -/
structure SpanKept (env : TelemetryEnv) (s : SpanRecord) : Prop where
  start : InYears s.startTime
  startText : env.parseRfc3339 (env.rfc3339 s.startTime) = some s.startTime
  endText : env.parseRfc3339 (env.rfc3339 s.endTime) = some s.endTime
  attributesText : env.parseJson (env.jsonText s.attributes) = some s.attributes
  writes : env.spanJson.Writes s

/-- The same for a metric. -/
structure MetricKept (env : TelemetryEnv) (m : MetricRecord) : Prop where
  time : InYears m.timestamp
  timeText : env.parseRfc3339 (env.rfc3339 m.timestamp) = some m.timestamp
  attributesText : env.parseJson (env.jsonText m.attributes) = some m.attributes
  writes : env.metricJson.Writes m

theorem SpanKept.ofRow {s : SpanRecord} (h : SpanKept env s) : env.spanOfRow (env.spanRow s) = s := by
  simp [TelemetryEnv.spanOfRow, TelemetryEnv.spanRow, h.startText, h.endText, h.attributesText]

theorem MetricKept.ofRow {m : MetricRecord} (h : MetricKept env m) :
    env.metricOfRow (env.metricRow m) = m := by
  simp [TelemetryEnv.metricOfRow, TelemetryEnv.metricRow, h.timeText, h.attributesText]

theorem inRange_spans : InRange env.spans := by
  intro start stop filter s h
  simp only [TelemetryEnv.spans, SpanRecord.matches, Bool.and_eq_true, decide_eq_true_eq] at h
  exact h.1.1.1

theorem inRange_metrics : InRange env.metrics := by
  intro start stop filter m h
  simp only [TelemetryEnv.metrics, MetricRecord.matches, Bool.and_eq_true, decide_eq_true_eq] at h
  exact h.1.1

/-- Both stores hold what was written. -/
structure StoresHold (parquet : ParquetTelemetryStore env) (jsonl : JsonlTelemetryStore)
    (spans : List SpanRecord) (metrics : List MetricRecord) : Prop where
  traces : Holds (σ := env.spans) parquet.traces spans
  partMetrics : Holds (σ := env.metrics) parquet.metrics metrics
  spanLines : LinesHold (σ := env.spans) jsonl.spans spans
  metricLines : LinesHold (σ := env.metrics) jsonl.metrics metrics

theorem StoresHold.call {parquet : ParquetTelemetryStore env} {jsonl : JsonlTelemetryStore}
    {spans : List SpanRecord} {metrics : List MetricRecord} (h : StoresHold parquet jsonl spans metrics)
    {c : TelemetryCall} (hspans : ∀ s ∈ writtenSpans [c], SpanKept env s)
    (hmetrics : ∀ m ∈ writtenMetrics [c], MetricKept env m) (hfree : WritesOverNothing parquet c) :
    StoresHold (parquet.call c) (jsonl.call env c) (spans ++ writtenSpans [c])
      (metrics ++ writtenMetrics [c]) := by
  cases c with
  | writeSpans batch =>
    have hbatch : writtenSpans [.writeSpans batch] = batch := List.append_nil batch
    have hnone : writtenMetrics [.writeSpans batch] = [] := rfl
    rw [hbatch] at hspans ⊢
    rw [hnone, List.append_nil]
    exact ⟨h.traces.writeRecords hfree, h.partMetrics,
      (h.spanLines.writeLines fun s hs => (hspans s hs).writes).2, h.metricLines⟩
  | writeMetrics batch =>
    have hbatch : writtenMetrics [.writeMetrics batch] = batch := List.append_nil batch
    have hnone : writtenSpans [.writeMetrics batch] = [] := rfl
    rw [hbatch] at hmetrics ⊢
    rw [hnone, List.append_nil]
    exact ⟨h.traces, h.partMetrics.writeRecords hfree, h.spanLines,
      (h.metricLines.writeLines fun m hm => (hmetrics m hm).writes).2⟩
  | restart =>
    have hs : writtenSpans [.restart] = [] := rfl
    have hm : writtenMetrics [.restart] = [] := rfl
    rw [hs, hm, List.append_nil, List.append_nil]
    exact ⟨h.traces, h.partMetrics, h.spanLines, h.metricLines⟩

theorem StoresHold.calls {calls : List TelemetryCall} {parquet : ParquetTelemetryStore env}
    {jsonl : JsonlTelemetryStore} {spans : List SpanRecord} {metrics : List MetricRecord}
    (h : StoresHold parquet jsonl spans metrics)
    (hspans : ∀ s ∈ writtenSpans calls, SpanKept env s)
    (hmetrics : ∀ m ∈ writtenMetrics calls, MetricKept env m)
    (hmeet : StepsMeet (fun store c => some (ParquetTelemetryStore.call store c)) WritesOverNothing
      parquet calls) :
    StoresHold (calls.foldl ParquetTelemetryStore.call parquet)
      (calls.foldl (JsonlTelemetryStore.call env) jsonl) (spans ++ writtenSpans calls)
      (metrics ++ writtenMetrics calls) := by
  induction calls generalizing parquet jsonl spans metrics with
  | nil =>
    have hs : writtenSpans [] = [] := rfl
    have hm : writtenMetrics [] = [] := rfl
    rw [hs, hm, List.append_nil, List.append_nil]
    exact h
  | cons c calls ih =>
    have hs : writtenSpans (c :: calls) = writtenSpans [c] ++ writtenSpans calls := by
      rw [← List.singleton_append, writtenSpans, List.flatMap_append, writtenSpans, writtenSpans]
    have hm : writtenMetrics (c :: calls) = writtenMetrics [c] ++ writtenMetrics calls := by
      rw [← List.singleton_append, writtenMetrics, List.flatMap_append, writtenMetrics,
        writtenMetrics]
    rw [hs] at hspans ⊢
    rw [hm] at hmetrics ⊢
    have hcall := h.call (fun s hs => hspans s (List.mem_append_left _ hs))
      (fun m hm => hmetrics m (List.mem_append_left _ hm)) hmeet.1
    rw [← List.append_assoc, ← List.append_assoc]
    exact ih hcall (fun s hs => hspans s (List.mem_append_right _ hs))
      (fun m hm => hmetrics m (List.mem_append_right _ hm)) hmeet.2

/-- The answers of both stores to all queries in the calendar are the records written. -/
def ReadsAll (parquet : ParquetTelemetryStore env) (jsonl : JsonlTelemetryStore)
    (spans : List SpanRecord) (metrics : List MetricRecord) : Prop :=
  ∀ start stop, InYears start → InYears stop → ∀ filter,
    (parquet.querySpans start stop filter).Perm (spans.filter (SpanRecord.matches start stop filter)) ∧
    (jsonl.querySpans env start stop filter).Perm
      (spans.filter (SpanRecord.matches start stop filter)) ∧
    (parquet.queryMetrics start stop filter).Perm
      (metrics.filter (MetricRecord.matches start stop filter)) ∧
    (jsonl.queryMetrics env start stop filter).Perm
      (metrics.filter (MetricRecord.matches start stop filter))

/-- **Telemetry written is telemetry read.** Batches are written and processes restarted in any
order, and no part file is written over: both stores answer every query with the records that were
written and match, each as often as it was written. -/
theorem telemetry_round_trip {calls : List TelemetryCall}
    (hspans : ∀ s ∈ writtenSpans calls, SpanKept env s)
    (hmetrics : ∀ m ∈ writtenMetrics calls, MetricKept env m)
    (hmeet : StepsMeet (fun store c => some (ParquetTelemetryStore.call store c)) WritesOverNothing
      (.new [] [] : ParquetTelemetryStore env) calls) :
    ReadsAll (calls.foldl ParquetTelemetryStore.call (.new [] [] : ParquetTelemetryStore env))
      (calls.foldl (JsonlTelemetryStore.call env) ⟨[], []⟩) (writtenSpans calls)
      (writtenMetrics calls) := by
  have hstart : StoresHold (.new [] [] : ParquetTelemetryStore env) ⟨[], []⟩ [] [] :=
    ⟨holds_nil, holds_nil, linesHold_nil, linesHold_nil⟩
  have h := hstart.calls hspans hmetrics hmeet
  rw [List.nil_append, List.nil_append] at h
  intro start stop hs ht filter
  exact ⟨h.traces.query (fun s hs => (hspans s hs).ofRow) inRange_spans
      (fun s hs => (hspans s hs).start) hs ht filter,
    h.spanLines.query (fun s hs => (hspans s hs).writes) inRange_spans hs ht filter,
    h.partMetrics.query (fun m hm => (hmetrics m hm).ofRow) inRange_metrics
      (fun m hm => (hmetrics m hm).time) hs ht filter,
    h.metricLines.query (fun m hm => (hmetrics m hm).writes) inRange_metrics hs ht filter⟩

/-! ## Restarts -/

/-- A span of the sample cluster. -/
def sampleSpan (id : String) (t : ℤ) : SpanRecord where
  traceId := "t"
  spanId := id
  parentSpanId := none
  operationName := "GET /api"
  serviceName := "api-server"
  startTime := t
  endTime := t
  durationMs := 0
  status := "OK"
  attributes := .object []

/-- The texts of the times of the sample spans. -/
def sampleTimes : List (ℤ × String) :=
  [(0, "1970-01-01T00:00:00+00:00"), (60000000000, "1970-01-01T00:01:00+00:00"),
    (3600000000000, "1970-01-01T01:00:00+00:00")]

set_option maxRecDepth 4000 in
/-- `serde_json` on the sample spans. -/
def sampleSpanJson : RoundTripCodec SpanRecord :=
  RoundTripCodec.ofTable
    [(sampleSpan "a" 0,
      "\x7b\"trace_id\":\"t\",\"span_id\":\"a\",\"parent_span_id\":null,\"operation_name\":\"GET /api\",\"service_name\":\"api-server\",\"start_time\":\"1970-01-01T00:00:00Z\",\"end_time\":\"1970-01-01T00:00:00Z\",\"duration_ms\":0,\"status\":\"OK\",\"attributes\":\x7b\x7d\x7d"),
     (sampleSpan "b" 60000000000,
      "\x7b\"trace_id\":\"t\",\"span_id\":\"b\",\"parent_span_id\":null,\"operation_name\":\"GET /api\",\"service_name\":\"api-server\",\"start_time\":\"1970-01-01T00:01:00Z\",\"end_time\":\"1970-01-01T00:01:00Z\",\"duration_ms\":0,\"status\":\"OK\",\"attributes\":\x7b\x7d\x7d"),
     (sampleSpan "c" 3600000000000,
      "\x7b\"trace_id\":\"t\",\"span_id\":\"c\",\"parent_span_id\":null,\"operation_name\":\"GET /api\",\"service_name\":\"api-server\",\"start_time\":\"1970-01-01T01:00:00Z\",\"end_time\":\"1970-01-01T01:00:00Z\",\"duration_ms\":0,\"status\":\"OK\",\"attributes\":\x7b\x7d\x7d")]
    (by refine nodup_texts ?_ ?_ ?_ <;> exact ne_of_toList rfl rfl (by decide +kernel))
    (by
      simp only [List.forall_mem_cons]
      exact ⟨isLine_ofList (by decide +kernel), isLine_ofList (by decide +kernel),
        isLine_ofList (by decide +kernel), by simp⟩)

/-- The libraries on the sample spans; a file is kept as its rows. -/
def sampleTelemetryEnv : TelemetryEnv where
  rfc3339 := fun t => (sampleTimes.lookup t).getD ""
  parseRfc3339 := fun text => (sampleTimes.find? (·.2 = text)).map Prod.fst
  now := 0
  jsonText := fun _ => "\x7b\x7d"
  parseJson := fun _ => some (.object [])
  spanParquet := ⟨List SpanRow, id, .ok, fun _ => rfl⟩
  metricParquet := ⟨List MetricRow, id, .ok, fun _ => rfl⟩
  spanJson := sampleSpanJson
  metricJson := RoundTripCodec.ofTable [] (by simp) (by simp)
  iterate := id
  iterate_perm := List.Perm.refl

/-- A span, a new process, and another span in the next hour. -/
def otherHour : List TelemetryCall :=
  [.writeSpans [sampleSpan "a" 0], .restart, .writeSpans [sampleSpan "c" 3600000000000]]

/-- A span, a new process, and another span in the same hour. -/
def sameHour : List TelemetryCall :=
  [.writeSpans [sampleSpan "a" 0], .restart, .writeSpans [sampleSpan "b" 60000000000]]

theorem spanKept_sample {id : String} (hyears : InYears t)
    (htext : sampleTelemetryEnv.parseRfc3339 (sampleTelemetryEnv.rfc3339 t) = some t)
    (hwrites : sampleSpanJson.Writes (sampleSpan id t)) :
    SpanKept sampleTelemetryEnv (sampleSpan id t) :=
  ⟨hyears, htext, htext, rfl, hwrites⟩

/-- A restart between two hours loses nothing. -/
theorem telemetry_round_trip_other_hour :
    ReadsAll (otherHour.foldl ParquetTelemetryStore.call
        (.new [] [] : ParquetTelemetryStore sampleTelemetryEnv))
      (otherHour.foldl (JsonlTelemetryStore.call sampleTelemetryEnv) ⟨[], []⟩)
      (writtenSpans otherHour) (writtenMetrics otherHour) := by
  refine telemetry_round_trip (fun s hs => ?_) (fun m hm => absurd hm (List.not_mem_nil)) ?_
  · have hs' : s = sampleSpan "a" 0 ∨ s = sampleSpan "c" 3600000000000 := by
      simpa [writtenSpans, otherHour] using hs
    rcases hs' with rfl | rfl
    · exact spanKept_sample (by unfold InYears; decide) (by decide) ⟨_, rfl⟩
    · exact spanKept_sample (by unfold InYears; decide) (by decide) ⟨_, rfl⟩
  · refine ⟨fun i key _ => List.not_mem_nil, trivial, fun i key hkey hmem => ?_, trivial⟩
    have hparts : ∀ key ∈ partitionsOf (σ := sampleTelemetryEnv.spans) sampleTelemetryEnv
        [sampleSpan "c" 3600000000000], key = "1970-01-01T01" := by decide +kernel
    have hnew : key = "1970-01-01T01" := hparts key (List.mem_of_getElem? hkey)
    -- the only part file is of the first hour
    have hold : ∀ k ∈ Assoc.keys (ParquetTelemetryStore.call (.new [] [])
        (.writeSpans [sampleSpan "a" 0]) : ParquetTelemetryStore sampleTelemetryEnv).traces,
        k.1 = "1970-01-01T00" := by decide +kernel
    exact absurd ((hold _ hmem).symm.trans hnew) (by decide)

/-- A restart within an hour: the part file of the first span is written over. -/
theorem restart_loses_spans :
    ¬ ReadsAll (sameHour.foldl ParquetTelemetryStore.call
        (.new [] [] : ParquetTelemetryStore sampleTelemetryEnv))
      (sameHour.foldl (JsonlTelemetryStore.call sampleTelemetryEnv) ⟨[], []⟩)
      (writtenSpans sameHour) (writtenMetrics sameHour) := by
  intro h
  have hperm := (h 0 60000000000 (by unfold InYears; decide) (by unfold InYears; decide) {}).1
  exact absurd hperm.length_eq (by decide +kernel)

end Picloud
