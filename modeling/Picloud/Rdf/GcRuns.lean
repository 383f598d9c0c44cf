import Picloud.Rdf.Facts

/-!
# Runs of the registry's garbage collection

Reference: the handlers of `RegistryGCStarted` and `RegistryGCCompleted` of
`picloud-rdf/src/implementation.rs`.

A completion is put down to the first running collection that a query finds. The engine finds the one
that has started last, so that overlapping runs are confused unless the last one to start completes first.
-/

namespace Picloud

open Lib

/-! ## Identifiers -/

theorem hexDigits_length (w n : ℕ) : (hexDigits w n).length = w := by
  induction w generalizing n with
  | zero => rfl
  | succ w ih => rw [hexDigits, List.length_append, ih, List.length_singleton]

theorem digitChar_inj {a b : ℕ} (ha : a < 16) (hb : b < 16) (h : a.digitChar = b.digitChar) : a = b := by
  have hall : ∀ a < 16, ∀ b < 16, a.digitChar = b.digitChar → a = b := by decide
  exact hall a ha b hb h

theorem hexDigits_inj {w n m : ℕ} (hn : n < 16 ^ w) (hm : m < 16 ^ w)
    (h : hexDigits w n = hexDigits w m) : n = m := by
  induction w generalizing n m with
  | zero => omega
  | succ w ih =>
    rw [hexDigits, hexDigits] at h
    obtain ⟨hinit, hlast⟩ := List.append_inj h (by rw [hexDigits_length, hexDigits_length])
    have hdiv : n / 16 = m / 16 := by
      apply ih _ _ hinit
      · exact Nat.div_lt_of_lt_mul (by rwa [Nat.pow_succ'] at hn)
      · exact Nat.div_lt_of_lt_mul (by rwa [Nat.pow_succ'] at hm)
    have hmod : n % 16 = m % 16 :=
      digitChar_inj (Nat.mod_lt _ (by decide)) (Nat.mod_lt _ (by decide)) (List.singleton_inj.mp hlast)
    omega

theorem hexDigits_ne_dash (w n : ℕ) : ∀ c ∈ hexDigits w n, decide (c ≠ '-') = true := by
  induction w generalizing n with
  | zero => simp [hexDigits]
  | succ w ih =>
    intro c hc
    rw [hexDigits, List.mem_append, List.mem_singleton] at hc
    rcases hc with hinit | rfl
    · exact ih _ c hinit
    · have hall : ∀ a < 16, decide (a.digitChar ≠ '-') = true := by decide
      exact hall _ (Nat.mod_lt _ (by decide))

/-- The hyphens of the usual form are the only ones. -/
theorem filter_hyphens {h : List Char} (hh : ∀ c ∈ h, decide (c ≠ '-') = true) :
    (h.take 8 ++ '-' :: (h.drop 8).take 4 ++ '-' :: (h.drop 12).take 4 ++ '-' :: (h.drop 16).take 4 ++
      '-' :: h.drop 20).filter (fun c => decide (c ≠ '-')) = h := by
  have hkeep : ∀ l : List Char, (∀ c ∈ l, c ∈ h) → l.filter (fun c => decide (c ≠ '-')) = l :=
    fun l hl => List.filter_eq_self.mpr fun c hc => hh c (hl c hc)
  have hdash : ∀ l : List Char, ('-' :: l).filter (fun c => decide (c ≠ '-')) =
      l.filter fun c => decide (c ≠ '-') := fun l => List.filter_cons_of_neg (by decide)
  rw [List.filter_append, List.filter_append, List.filter_append, List.filter_append, hdash, hdash, hdash,
    hdash, hkeep _ fun c => List.mem_of_mem_take,
    hkeep _ fun c hc => List.mem_of_mem_drop (List.mem_of_mem_take hc),
    hkeep _ fun c hc => List.mem_of_mem_drop (List.mem_of_mem_take hc),
    hkeep _ fun c hc => List.mem_of_mem_drop (List.mem_of_mem_take hc),
    hkeep _ fun c => List.mem_of_mem_drop]
  have hsplit : ∀ n m : ℕ, (h.drop n).take m ++ h.drop (n + m) = h.drop n := by
    intro n m
    rw [← List.drop_drop, List.take_append_drop]
  rw [List.append_assoc, hsplit 16 4, List.append_assoc, hsplit 12 4, List.append_assoc, hsplit 8 4,
    List.take_append_drop]

theorem display_eq (u : Uuid) : u.display =
    String.ofList ((hexDigits 32 u.toNat).take 8 ++ '-' :: ((hexDigits 32 u.toNat).drop 8).take 4 ++
      '-' :: ((hexDigits 32 u.toNat).drop 12).take 4 ++ '-' :: ((hexDigits 32 u.toNat).drop 16).take 4 ++
      '-' :: (hexDigits 32 u.toNat).drop 20) := rfl

/-- The digits of an identifier, read back from its hyphenated form. -/
theorem filter_display (u : Uuid) :
    u.display.toList.filter (fun c => decide (c ≠ '-')) = hexDigits 32 u.toNat := by
  rw [display_eq, String.toList_ofList]
  exact filter_hyphens (hexDigits_ne_dash 32 u.toNat)

theorem display_injective : Function.Injective Uuid.display := by
  intro u v h
  have hdigits : hexDigits 32 u.toNat = hexDigits 32 v.toNat := by
    rw [← filter_display, ← filter_display, h]
  exact BitVec.eq_of_toNat_eq (hexDigits_inj u.isLt v.isLt hdigits)

variable {env : ProjectorEnv}

theorem gcIri_injective : Function.Injective (gcIri env) := by
  intro u v h
  apply display_injective
  have hlist := congrArg String.toList h
  unfold gcIri at hlist
  simp only [String.toList_append] at hlist
  generalize u.display = d, v.display = d' at hlist ⊢
  exact String.toList_inj.mp (List.append_cancel_left hlist)

/-! ## What the two handlers write -/

/-- What a start writes about its run. -/
def runningFacts (start : EventEnvelope) : List (String × Term) :=
  [("status", simple "running"), ("scheduledAt", typed (start.strD "scheduled_at" "") xsdDateTime)]

/-- A number of the payload of a completion. -/
def gcCount (event : EventEnvelope) (field : String) : Term :=
  typed (toString ((event.payload.index field).asU64.getD 0)) xsdUnsignedLong

/-- What a completion writes about the run that it finds. -/
def completionFacts (env : ProjectorEnv) (completion : EventEnvelope) : List (String × Term) :=
  [("status", picloudTerm "Completed"), ("statusLabel", simple "completed"),
    ("blobsDeleted", gcCount completion "blobs_deleted"),
    ("bytesReclaimed", gcCount completion "bytes_reclaimed"),
    ("durationMs", gcCount completion "duration_ms"),
    ("completedAt", typed (env.rfc3339 completion.timestamp) xsdDateTime)]

/-- The IRIs of garbage collections are IRIs: the cluster domain is valid. -/
def GcIrisValid (env : ProjectorEnv) : Prop := ∀ id, env.checks.iri (gcIri env id) = none

section Handlers

variable {event : EventEnvelope} {s : Store} {iri name : String} {o : Term}

theorem projected_gcStarted (htype : event.eventType = "RegistryGCStarted") (hvalid : GcIrisValid env) :
    projected env s event =
      ((s.insert (quad (gcIri env event.id) rdfType (picloudTerm "RegistryGC") .default)).insert
        (quad (gcIri env event.id) (pc "status") (simple "running") .default)).insert
          (quad (gcIri env event.id) (pc "scheduledAt")
            (typed (event.strD "scheduled_at" "") xsdDateTime) .default) := by
  have hiri := hvalid event.id
  have hscript : script env event = projectRegistryGcStarted env event := by
    rw [script, htype]
    rfl
  rw [projected_eq, hscript, projectRegistryGcStarted, runScript_singleton]
  dsimp only [Step.run]
  rw [List.append_assoc, runOps_insertTriple hiri env.iri_rdfType,
    runOps_insertTriple hiri (env.iri_pc "status" (by decide)), ← List.append_nil (insertTriple _ _ _),
    runOps_insertTriple hiri (env.iri_pc "scheduledAt" (by decide))]
  rfl

theorem has_gcStarted (htype : event.eventType = "RegistryGCStarted") (hvalid : GcIrisValid env) :
    Has (projected env s event) iri name o ↔
      Has s iri name o ∨ iri = gcIri env event.id ∧ (name, o) ∈ runningFacts event := by
  rw [projected_gcStarted htype hvalid, has_insert, has_insert, has_insert_type]
  simp only [runningFacts, List.mem_cons, Prod.mk.injEq, List.not_mem_nil, or_false, and_or_left, or_assoc]

/-- The run that a completion finds. -/
def foundGc (env : ProjectorEnv) (event : EventEnvelope) (s : Store) : String :=
  (runningGc env s).getD (gcIri env event.correlationId)

theorem completeGc_eq : completeGc env event s =
    updateStatus env (foundGc env event s) "completed" none ++
      insertTriple (foundGc env event s) (pc "blobsDeleted") (gcCount event "blobs_deleted") ++
      insertTriple (foundGc env event s) (pc "bytesReclaimed") (gcCount event "bytes_reclaimed") ++
      insertTriple (foundGc env event s) (pc "durationMs") (gcCount event "duration_ms") ++
      insertTriple (foundGc env event s) (pc "completedAt")
        (typed (env.rfc3339 event.timestamp) xsdDateTime) := rfl

theorem projected_gcCompleted (htype : event.eventType = "RegistryGCCompleted")
    (hiri : env.checks.iri (foundGc env event s) = none) :
    projected env s event =
      ((((((s.removeIf (valuesOf (foundGc env event s) (pc "status") (some .default)).matches).insert
        (quad (foundGc env event s) (pc "status") (picloudTerm "Completed") .default)).insert
        (quad (foundGc env event s) (pc "statusLabel") (simple "completed") .default)).insert
        (quad (foundGc env event s) (pc "blobsDeleted") (gcCount event "blobs_deleted") .default)).insert
        (quad (foundGc env event s) (pc "bytesReclaimed") (gcCount event "bytes_reclaimed")
          .default)).insert
        (quad (foundGc env event s) (pc "durationMs") (gcCount event "duration_ms") .default)).insert
        (quad (foundGc env event s) (pc "completedAt") (typed (env.rfc3339 event.timestamp) xsdDateTime)
          .default) := by
  have hcapital : capitalizeStatus "completed" = "Completed" := by decide
  rw [projected_eq, script_registryGcCompleted htype, projectRegistryGcCompleted, runScript_singleton,
    Step.run, completeGc_eq, updateStatus, hcapital]
  generalize foundGc env event s = iri at hiri ⊢
  simp only [List.cons_append, List.append_assoc, Option.toList_none, List.flatMap_nil, List.nil_append]
  rw [runOps_named_ok _ hiri, runOps_clearInDefault (env.iri_pc "status" (by decide)),
    runOps_insertTriple hiri (env.iri_pc "status" (by decide)),
    runOps_insertTriple hiri (env.iri_pc "statusLabel" (by decide)),
    runOps_insertTriple hiri (env.iri_pc "blobsDeleted" (by decide)),
    runOps_insertTriple hiri (env.iri_pc "bytesReclaimed" (by decide)),
    runOps_insertTriple hiri (env.iri_pc "durationMs" (by decide)),
    ← List.append_nil (insertTriple _ _ _), runOps_insertTriple hiri (env.iri_pc "completedAt" (by decide)), runOps]

theorem has_gcCompleted (htype : event.eventType = "RegistryGCCompleted")
    (hiri : env.checks.iri (foundGc env event s) = none) :
    Has (projected env s event) iri name o ↔
      Has s iri name o ∧ ¬ (iri = foundGc env event s ∧ name = "status") ∨
        iri = foundGc env event s ∧ (name, o) ∈ completionFacts env event := by
  rw [projected_gcCompleted htype hiri, has_insert, has_insert, has_insert, has_insert, has_insert,
    has_insert, has_clear]
  simp only [completionFacts, List.mem_cons, Prod.mk.injEq, List.not_mem_nil, or_false, and_or_left,
    or_assoc]

end Handlers

/-! ## The query -/

/-- The engine returns the quads of a pattern from the one inserted last to the one inserted first. -/
def NewestFirst (env : ProjectorEnv) : Prop := ∀ rows, env.scan rows = rows.reverse

/-- What the query looks for first. -/
def gcPattern : Pattern := ⟨none, some ⟨rdfType⟩, some (picloudTerm "RegistryGC"), some .default⟩

/-- The run has the status of a running one. -/
def RunningIn (env : ProjectorEnv) (s : Store) (a : EventEnvelope) : Prop :=
  Has s (gcIri env a.id) "status" (simple "running")

instance decidableRunningIn (env : ProjectorEnv) (s : Store) : DecidablePred (RunningIn env s) :=
  fun _ => inferInstanceAs (Decidable (Has ..))

/-- The row of a run. -/
def gcRow (env : ProjectorEnv) (a : EventEnvelope) : Quad :=
  quad (gcIri env a.id) rdfType (picloudTerm "RegistryGC") .default

theorem matches_gcRow (a : EventEnvelope) : gcPattern.matches (gcRow env a) = true := by
  rw [Pattern.matches_iff]
  exact ⟨rfl, admits_some.mpr rfl, admits_some.mpr rfl, admits_some.mpr rfl⟩

theorem not_matches_fact (iri name : String) (o : Term) :
    gcPattern.matches (quad iri (pc name) o .default) = false := by
  rw [Bool.eq_false_iff]
  intro h
  obtain ⟨-, hpredicate, -, -⟩ := Pattern.matches_iff.mp h
  exact absurd (congrArg NamedNode.value (admits_some.mp hpredicate)) (rdfType_ne_pc name)

section Rows

variable {s : Store} {q : Quad}

theorem rows_insert (hq : gcPattern.matches q = false) :
    (s.insert q).quadsForPattern gcPattern = s.quadsForPattern gcPattern := by
  rw [Store.insert]
  split_ifs
  · rfl
  · rw [Store.quadsForPattern, List.filter_append, List.filter_cons_of_neg (by simp [hq]),
      List.filter_nil, List.append_nil]
    rfl

theorem rows_insert_new (hq : gcPattern.matches q = true) (hnew : q ∉ s) :
    (s.insert q).quadsForPattern gcPattern = s.quadsForPattern gcPattern ++ [q] := by
  rw [Store.insert, if_neg hnew, Store.quadsForPattern, List.filter_append, List.filter_cons_of_pos hq,
    List.filter_nil]
  rfl

theorem rows_clear (iri name : String) :
    (s.removeIf (valuesOf iri (pc name) (some .default)).matches).quadsForPattern gcPattern =
      s.quadsForPattern gcPattern := by
  rw [Store.quadsForPattern, Store.removeIf, List.filter_filter]
  refine List.filter_congr fun q _ => ?_
  by_cases hq : gcPattern.matches q = true
  · obtain ⟨-, hpredicate, -, -⟩ := Pattern.matches_iff.mp hq
    have hother : (valuesOf iri (pc name) (some .default)).matches q = false := by
      rw [Bool.eq_false_iff]
      intro h
      have hname := (Pattern.matches_iff.mp h).2.1
      rw [valuesOf, admits_some] at hname
      exact absurd (congrArg NamedNode.value ((admits_some.mp hpredicate).trans hname.symm))
        (rdfType_ne_pc name)
    rw [hq, hother]
    rfl
  · rw [Bool.not_eq_true] at hq
    rw [hq, Bool.false_and]

end Rows

/-! ## Logs of garbage collections -/

/-- The starts among the events. -/
def gcStarts (events : List EventEnvelope) : List EventEnvelope :=
  events.filter fun e => e.eventType = "RegistryGCStarted"

/-- The completions among the events. -/
def gcCompletions (events : List EventEnvelope) : List EventEnvelope :=
  events.filter fun e => e.eventType = "RegistryGCCompleted"

/-- A log of starts and completions: every completion belongs to one earlier start, by its correlation
identifier. -/
structure GcLog (events : List EventEnvelope) : Prop where
  types : ∀ e ∈ events, e.eventType = "RegistryGCStarted" ∨ e.eventType = "RegistryGCCompleted"
  ids : ((gcStarts events).map (·.id)).Nodup
  runs : ((gcStarts events).map (·.correlationId)).Nodup
  ends : ((gcCompletions events).map (·.correlationId)).Nodup
  started : ∀ pre c post, events = pre ++ c :: post → c.eventType = "RegistryGCCompleted" →
    ∃ a ∈ gcStarts pre, a.correlationId = c.correlationId

/-- Every run is recorded as running, or with the statistics of its own completion. -/
structure GcMatched (env : ProjectorEnv) (events : List EventEnvelope) (s : Store) : Prop where
  running : ∀ a ∈ gcStarts events, (∀ c ∈ gcCompletions events, c.correlationId ≠ a.correlationId) →
    ∀ name o, Has s (gcIri env a.id) name o ↔ (name, o) ∈ runningFacts a
  completed : ∀ a ∈ gcStarts events, ∀ c ∈ gcCompletions events, c.correlationId = a.correlationId →
    ∀ name o, Has s (gcIri env a.id) name o ↔
      (name, o) ∈ runningFacts a ∧ name ≠ "status" ∨ (name, o) ∈ completionFacts env c

/-- The runs that have started after a run, the last one first. -/
def startedAfter (events : List EventEnvelope) (run : Uuid) : List EventEnvelope :=
  (gcStarts events).reverse.takeWhile fun a => decide (a.correlationId ≠ run)

/-- When a run completes, those that have started after it have completed. -/
def GcLastFirst (events : List EventEnvelope) : Prop :=
  ∀ pre c post, events = pre ++ c :: post → c.eventType = "RegistryGCCompleted" →
    ∀ other ∈ startedAfter pre c.correlationId,
      ∃ c' ∈ gcCompletions pre, c'.correlationId = other.correlationId

section Log

variable {events pre : List EventEnvelope} {e : EventEnvelope}

theorem mem_gcCompletions {c : EventEnvelope} :
    c ∈ gcCompletions events ↔ c ∈ events ∧ c.eventType = "RegistryGCCompleted" := by
  simp [gcCompletions]

/-- A log up to some event is a log. -/
theorem GcLog.take {post : List EventEnvelope} (h : GcLog (pre ++ post)) : GcLog pre := by
  have hids := h.ids
  have hruns := h.runs
  have hends := h.ends
  rw [gcStarts, List.filter_append, List.map_append] at hids hruns
  rw [gcCompletions, List.filter_append, List.map_append] at hends
  refine ⟨fun e he => h.types e (List.mem_append_left _ he), hids.of_append_left,
    hruns.of_append_left, hends.of_append_left, fun pre' c post' heq => ?_⟩
  apply h.started pre' c (post' ++ post)
  rw [heq, List.append_assoc, List.cons_append]

theorem GcLastFirst.take {post : List EventEnvelope} (h : GcLastFirst (pre ++ post)) :
    GcLastFirst pre := by
  intro pre' c post' heq
  apply h pre' c (post' ++ post)
  rw [heq, List.append_assoc, List.cons_append]

theorem GcLog.start_eq (h : GcLog events) {a b : EventEnvelope} (ha : a ∈ gcStarts events)
    (hb : b ∈ gcStarts events) (hrun : a.correlationId = b.correlationId) : a = b :=
  List.inj_on_of_nodup_map h.runs ha hb hrun

theorem GcLog.start_eq_of_id (h : GcLog events) {a b : EventEnvelope} (ha : a ∈ gcStarts events)
    (hb : b ∈ gcStarts events) (hid : a.id = b.id) : a = b :=
  List.inj_on_of_nodup_map h.ids ha hb hid

theorem gcStarts_start (htype : e.eventType = "RegistryGCStarted") :
    gcStarts (pre ++ [e]) = gcStarts pre ++ [e] := by
  simp [gcStarts, htype]

theorem gcStarts_completion (htype : e.eventType = "RegistryGCCompleted") :
    gcStarts (pre ++ [e]) = gcStarts pre := by
  simp [gcStarts, htype]

theorem gcCompletions_start (htype : e.eventType = "RegistryGCStarted") :
    gcCompletions (pre ++ [e]) = gcCompletions pre := by
  simp [gcCompletions, htype]

theorem gcCompletions_completion (htype : e.eventType = "RegistryGCCompleted") :
    gcCompletions (pre ++ [e]) = gcCompletions pre ++ [e] := by
  simp [gcCompletions, htype]

/-- A start comes before the completions of its run. -/
theorem GcLog.not_completed (h : GcLog (pre ++ [e])) (htype : e.eventType = "RegistryGCStarted") :
    ∀ c ∈ gcCompletions pre, c.correlationId ≠ e.correlationId := by
  intro c hc hrun
  obtain ⟨hmem, hctype⟩ := mem_gcCompletions.mp hc
  obtain ⟨before, after, rfl⟩ := List.append_of_mem hmem
  obtain ⟨a, ha, hstart⟩ := h.started before c (after ++ [e]) (by simp) hctype
  have hruns := h.runs
  rw [gcStarts_start htype, List.map_append] at hruns
  refine List.disjoint_of_nodup_append hruns (List.mem_map.mpr ⟨a, ?_, rfl⟩)
    (List.mem_singleton.mpr (hstart.trans hrun))
  rw [gcStarts, List.filter_append]
  exact List.mem_append_left _ ha

end Log

/-! ## The invariant -/

/-- The garbage collections of the store are those that have started, in their order. -/
def GcRows (env : ProjectorEnv) (events : List EventEnvelope) (s : Store) : Prop :=
  s.quadsForPattern gcPattern = (gcStarts events).map (gcRow env)

/-- Nothing is known of the other ones. -/
structure GcKnown (env : ProjectorEnv) (events : List EventEnvelope) (s : Store) : Prop where
  rows : GcRows env events s
  fresh : ∀ id, (∀ a ∈ gcStarts events, a.id ≠ id) → ∀ name o, ¬ Has s (gcIri env id) name o

section Run

variable {pre : List EventEnvelope} {e : EventEnvelope} {s : Store}

theorem gcKnown_nil : GcKnown env [] [] :=
  ⟨rfl, fun _ _ _ _ => by simp⟩

/-- A run with a row has started. -/
theorem GcRows.exists_start (h : GcRows env pre s) (hrow : gcRow env e ∈ s) :
    ∃ a ∈ gcStarts pre, a.id = e.id := by
  have hmem := Store.mem_quadsForPattern.mpr ⟨hrow, matches_gcRow e⟩
  rw [h] at hmem
  obtain ⟨a, ha, heq⟩ := List.mem_map.mp hmem
  refine ⟨a, ha, @gcIri_injective env _ _ ?_⟩
  exact NamedNode.mk.inj (Subject.named.inj (congrArg Quad.subject heq))

theorem GcLog.start_new (h : GcLog (pre ++ [e])) (htype : e.eventType = "RegistryGCStarted") :
    ∀ a ∈ gcStarts pre, a.id ≠ e.id := by
  have hids := h.ids
  rw [gcStarts_start htype, List.map_append] at hids
  exact fun a ha heq => List.disjoint_of_nodup_append hids (List.mem_map_of_mem ha)
    (List.mem_singleton.mpr heq)

theorem GcRows.start (h : GcRows env pre s) (hlog : GcLog (pre ++ [e]))
    (htype : e.eventType = "RegistryGCStarted") (hvalid : GcIrisValid env) :
    GcRows env (pre ++ [e]) (projected env s e) := by
  have hnew : gcRow env e ∉ s := fun hrow => by
    obtain ⟨a, ha, hid⟩ := h.exists_start hrow
    exact hlog.start_new htype a ha hid
  rw [GcRows, projected_gcStarted htype hvalid, rows_insert (not_matches_fact ..),
    rows_insert (not_matches_fact ..), gcStarts_start htype, List.map_append, ← h]
  exact rows_insert_new (matches_gcRow e) hnew

/-- The query finds the last one of the runs that are running. -/
theorem GcRows.runningGc_eq (h : GcRows env pre s) (hnewest : NewestFirst env) :
    runningGc env s = ((gcStarts pre).reverse.find? fun a => decide (RunningIn env s a)).map
      fun a => gcIri env a.id := by
  have hrows : s.quadsForPattern ⟨none, some ⟨rdfType⟩, some (picloudTerm "RegistryGC"),
      some .default⟩ = (gcStarts pre).map (gcRow env) := h
  rw [runningGc, hrows, hnewest, ← List.map_reverse, List.filter_map, List.head?_map, List.head?_filter,
    Option.map_map]
  rfl

theorem GcRows.found_valid (h : GcRows env pre s) (hnewest : NewestFirst env)
    (hvalid : GcIrisValid env) : env.checks.iri (foundGc env e s) = none := by
  rw [foundGc, h.runningGc_eq hnewest]
  cases (gcStarts pre).reverse.find? fun a => decide (RunningIn env s a) with
  | none => exact hvalid e.correlationId
  | some a => exact hvalid a.id

theorem GcRows.completion (h : GcRows env pre s) (hnewest : NewestFirst env)
    (htype : e.eventType = "RegistryGCCompleted") (hvalid : GcIrisValid env) :
    GcRows env (pre ++ [e]) (projected env s e) := by
  rw [GcRows, projected_gcCompleted htype (h.found_valid hnewest hvalid), gcStarts_completion htype, ← h,
    rows_insert (not_matches_fact ..), rows_insert (not_matches_fact ..),
    rows_insert (not_matches_fact ..), rows_insert (not_matches_fact ..),
    rows_insert (not_matches_fact ..), rows_insert (not_matches_fact ..), rows_clear]

/-- In every run, whatever its completions find. -/
theorem gcRows_run (hnewest : NewestFirst env) (hvalid : GcIrisValid env) {events : List EventEnvelope}
    (hlog : GcLog events) : GcRows env events (Projector.new.projectEach env events).store := by
  rw [Projector.store_projectEach]
  induction events using List.reverseRecOn with
  | nil => exact gcKnown_nil.rows
  | append_singleton pre e ih =>
    have hpre := ih hlog.take
    rw [List.foldl_append]
    rcases hlog.types e (List.mem_append_right _ (List.mem_singleton_self e)) with htype | htype
    · exact hpre.start hlog htype hvalid
    · exact hpre.completion hnewest htype hvalid

/-- A start makes its run known. -/
theorem GcKnown.start (h : GcKnown env pre s) (hlog : GcLog (pre ++ [e]))
    (htype : e.eventType = "RegistryGCStarted") (hvalid : GcIrisValid env) :
    GcKnown env (pre ++ [e]) (projected env s e) := by
  refine ⟨h.rows.start hlog htype hvalid, fun id hid name o => ?_⟩
  rw [gcStarts_start htype] at hid
  rw [has_gcStarted htype hvalid]
  rintro (hold | ⟨hiri, -⟩)
  · exact h.fresh id (fun a ha => hid a (List.mem_append_left _ ha)) name o hold
  · exact hid e (List.mem_append_right _ (List.mem_singleton_self e)) (gcIri_injective hiri).symm

variable {a : EventEnvelope}

/-- A run is running in the store as long as it is open. -/
theorem GcMatched.runningIn_iff (h : GcMatched env pre s) (ha : a ∈ gcStarts pre) :
    RunningIn env s a ↔ ∀ c ∈ gcCompletions pre, c.correlationId ≠ a.correlationId := by
  constructor
  · intro hrunning c hc hcorr
    have hfacts := (h.completed a ha c hc hcorr "status" (simple "running")).mp hrunning
    simp [completionFacts, simple, picloudTerm] at hfacts
  · exact fun hopen => (h.running a ha hopen "status" _).mpr (by simp [runningFacts])

/-- Nothing else has completed the own run of a completion. -/
theorem GcLog.open_own (hlog : GcLog (pre ++ [e])) (htype : e.eventType = "RegistryGCCompleted")
    (hrun : a.correlationId = e.correlationId) :
    ∀ c ∈ gcCompletions pre, c.correlationId ≠ a.correlationId := by
  have hends := hlog.ends
  rw [gcCompletions_completion htype, List.map_append] at hends
  exact fun c hc heq => List.disjoint_of_nodup_append hends (List.mem_map_of_mem hc)
    (List.mem_singleton.mpr (heq.trans hrun))

/-- The own run of a completion is found when those that have started after it have completed. -/
theorem GcMatched.found_own (h : GcMatched env pre s) (hnewest : NewestFirst env)
    (hknown : GcKnown env pre s) (hlog : GcLog (pre ++ [e])) (htype : e.eventType = "RegistryGCCompleted")
    (hlast : GcLastFirst (pre ++ [e])) (ha : a ∈ gcStarts pre)
    (hrun : a.correlationId = e.correlationId) : foundGc env e s = gcIri env a.id := by
  have hrunning := (h.runningIn_iff ha).mpr (hlog.open_own htype hrun)
  -- the runs before the own one in the order of the rows have completed
  have hafter : (startedAfter pre e.correlationId).find? (fun b => decide (RunningIn env s b)) = none := by
    refine List.find?_eq_none.mpr fun b hb hbad => ?_
    have hstart : b ∈ gcStarts pre := List.mem_reverse.mp ((List.takeWhile_sublist _).subset hb)
    obtain ⟨c, hc, hcorr⟩ := hlast pre e [] rfl htype b hb
    exact (h.runningIn_iff hstart).mp (of_decide_eq_true hbad) c hc hcorr
  have hown : ∃ rest, (gcStarts pre).reverse.dropWhile
      (fun b => decide (b.correlationId ≠ e.correlationId)) = a :: rest := by
    cases hdrop : (gcStarts pre).reverse.dropWhile
        (fun b => decide (b.correlationId ≠ e.correlationId)) with
    | nil =>
      have hne := List.dropWhile_eq_nil_iff.mp hdrop a (List.mem_reverse.mpr ha)
      exact absurd hrun (of_decide_eq_true hne)
    | cons b rest =>
      have hb : b.correlationId = e.correlationId := by
        have hhead := List.head?_dropWhile_not (fun b => decide (b.correlationId ≠ e.correlationId))
          (gcStarts pre).reverse
        rw [hdrop] at hhead
        simpa using hhead
      have hmem : b ∈ gcStarts pre := List.mem_reverse.mp
        ((List.dropWhile_sublist _).subset (hdrop ▸ List.mem_cons_self))
      exact ⟨rest, by rw [hlog.take.start_eq hmem ha (hb.trans hrun.symm)]⟩
  obtain ⟨rest, hown⟩ := hown
  have hsplit : (gcStarts pre).reverse = startedAfter pre e.correlationId ++ a :: rest := by
    rw [← hown, startedAfter, List.takeWhile_append_dropWhile]
  rw [foundGc, hknown.rows.runningGc_eq hnewest, hsplit, List.find?_append, hafter, Option.none_or,
    List.find?_cons_of_pos (p := fun b => decide (RunningIn env s b)) (decide_eq_true hrunning)]
  rfl

/-- A start is recorded as running. -/
theorem GcMatched.start (h : GcMatched env pre s) (hknown : GcKnown env pre s)
    (hlog : GcLog (pre ++ [e])) (htype : e.eventType = "RegistryGCStarted") (hvalid : GcIrisValid env) :
    GcMatched env (pre ++ [e]) (projected env s e) := by
  have hnew := hlog.start_new htype
  have hother : ∀ a ∈ gcStarts pre, ∀ name o,
      Has (projected env s e) (gcIri env a.id) name o ↔ Has s (gcIri env a.id) name o := by
    intro a ha name o
    rw [has_gcStarted htype hvalid, or_iff_left]
    rintro ⟨hiri, -⟩
    exact hnew a ha (gcIri_injective hiri)
  refine ⟨fun a ha hopen name o => ?_, fun a ha c hc hrun name o => ?_⟩
  · rw [gcCompletions_start htype] at hopen
    rw [gcStarts_start htype, List.mem_append, List.mem_singleton] at ha
    rcases ha with ha | rfl
    · rw [hother a ha]
      exact h.running a ha hopen name o
    · rw [has_gcStarted htype hvalid, or_iff_right (hknown.fresh a.id hnew name o)]
      simp
  · rw [gcCompletions_start htype] at hc
    rw [gcStarts_start htype, List.mem_append, List.mem_singleton] at ha
    rcases ha with ha | rfl
    · rw [hother a ha]
      exact h.completed a ha c hc hrun name o
    · exact absurd hrun (hlog.not_completed htype c hc)

/-- A completion makes nothing known but its own run. -/
theorem GcKnown.completion (h : GcKnown env pre s) (hnewest : NewestFirst env)
    (htype : e.eventType = "RegistryGCCompleted") (hvalid : GcIrisValid env) (ha : a ∈ gcStarts pre) (hfound : foundGc env e s = gcIri env a.id) :
    GcKnown env (pre ++ [e]) (projected env s e) := by
  refine ⟨h.rows.completion hnewest htype hvalid, fun id hid name o => ?_⟩
  rw [gcStarts_completion htype] at hid
  rw [has_gcCompleted htype (h.rows.found_valid hnewest hvalid), hfound]
  rintro (⟨hold, -⟩ | ⟨heq, -⟩)
  · exact h.fresh id hid name o hold
  · exact hid a ha (gcIri_injective heq).symm

/-- A completion that finds its own run is recorded with it. -/
theorem GcMatched.completion (h : GcMatched env pre s) (hnewest : NewestFirst env)
    (hknown : GcKnown env pre s) (hlog : GcLog (pre ++ [e])) (htype : e.eventType = "RegistryGCCompleted")
    (hvalid : GcIrisValid env) (ha : a ∈ gcStarts pre) (hrun : a.correlationId = e.correlationId)
    (hfound : foundGc env e s = gcIri env a.id) :
    GcMatched env (pre ++ [e]) (projected env s e) := by
  have hiri := hknown.rows.found_valid (e := e) hnewest hvalid
  have hopen := hlog.open_own htype hrun
  have hother : ∀ b ∈ gcStarts pre, b ≠ a → ∀ name o,
      Has (projected env s e) (gcIri env b.id) name o ↔ Has s (gcIri env b.id) name o := by
    intro b hb hne name o
    have hiris : gcIri env b.id ≠ gcIri env a.id := fun heq =>
      hne (hlog.take.start_eq_of_id hb ha (gcIri_injective heq))
    rw [has_gcCompleted htype hiri, hfound]
    simp [hiris]
  refine ⟨fun b hb hopen' name o => ?_, fun b hb c hc hbrun name o => ?_⟩
  · rw [gcCompletions_completion htype] at hopen'
    rw [gcStarts_completion htype] at hb
    have hne : b ≠ a := by
      rintro rfl
      exact hopen' e (List.mem_append_right _ (List.mem_singleton_self e)) hrun.symm
    rw [hother b hb hne]
    exact h.running b hb (fun c hc => hopen' c (List.mem_append_left _ hc)) name o
  · rw [gcCompletions_completion htype, List.mem_append, List.mem_singleton] at hc
    rw [gcStarts_completion htype] at hb
    rcases hc with hc | rfl
    · have hne : b ≠ a := by
        rintro rfl
        exact hopen c hc hbrun
      rw [hother b hb hne]
      exact h.completed b hb c hc hbrun name o
    · obtain rfl : b = a := hlog.take.start_eq hb ha (hbrun.symm.trans hrun.symm)
      rw [has_gcCompleted htype hiri, hfound, h.running b hb hopen]
      simp

/-- Where the last run to start completes first every run is recorded with its own completion. -/
theorem gc_matched_run (hnewest : NewestFirst env) (hvalid : GcIrisValid env)
    {events : List EventEnvelope} (hlog : GcLog events) (hlast : GcLastFirst events) :
    GcMatched env events (Projector.new.projectEach env events).store := by
  rw [Projector.store_projectEach]
  suffices h : GcMatched env events (events.foldl (projected env) []) ∧
      GcKnown env events (events.foldl (projected env) []) from h.1
  induction events using List.reverseRecOn with
  | nil => exact ⟨⟨by simp [gcStarts], by simp [gcStarts]⟩, gcKnown_nil⟩
  | append_singleton pre e ih =>
    obtain ⟨hmatched, hknown⟩ := ih hlog.take hlast.take
    rw [List.foldl_append]
    rcases hlog.types e (List.mem_append_right _ (List.mem_singleton_self e)) with htype | htype
    · exact ⟨hmatched.start hknown hlog htype hvalid, hknown.start hlog htype hvalid⟩
    · obtain ⟨a, ha, hrun⟩ := hlog.started pre e [] rfl htype
      have hfound := hmatched.found_own hnewest hknown hlog htype hlast ha hrun
      exact ⟨hmatched.completion hnewest hknown hlog htype hvalid ha hrun hfound,
        hknown.completion hnewest htype hvalid ha hfound⟩

end Run

/-! ## The order of completions -/

/-- A completion that finds another open run leaves it completed. -/
theorem not_matched_of_found {pre : List EventEnvelope} {c other : EventEnvelope} {s : Store}
    (hvalid : GcIrisValid env) (htype : c.eventType = "RegistryGCCompleted")
    (hother : other ∈ gcStarts pre) (hne : other.correlationId ≠ c.correlationId)
    (hopen : ∀ c' ∈ gcCompletions pre, c'.correlationId ≠ other.correlationId)
    (hfound : foundGc env c s = gcIri env other.id) : ¬ GcMatched env (pre ++ [c]) (projected env s c) := by
  intro h
  have hiri : env.checks.iri (foundGc env c s) = none := hfound ▸ hvalid other.id
  have hcompleted : Has (projected env s c) (gcIri env other.id) "status" (picloudTerm "Completed") := by
    rw [has_gcCompleted htype hiri, hfound]
    exact Or.inr ⟨rfl, by simp [completionFacts]⟩
  have hopen' : ∀ c' ∈ gcCompletions (pre ++ [c]), c'.correlationId ≠ other.correlationId := by
    intro c' hc'
    rw [gcCompletions_completion htype, List.mem_append, List.mem_singleton] at hc'
    rcases hc' with hc' | rfl
    · exact hopen c' hc'
    · exact hne.symm
  have hfacts := (h.running other (by rwa [gcStarts_completion htype]) hopen' _ _).mp hcompleted
  simp [runningFacts, picloudTerm, simple] at hfacts

/-- **Every run is matched to its own completion after every event, exactly when of two runs underway the
last one to start completes first.** -/
theorem gc_matched_iff (env : ProjectorEnv) (hnewest : NewestFirst env) (hvalid : GcIrisValid env)
    (events : List EventEnvelope) (hlog : GcLog events) :
    (∀ pre post, events = pre ++ post →
      GcMatched env pre (Projector.new.projectEach env pre).store) ↔ GcLastFirst events := by
  constructor
  · intro h pre c post heq htype other hother
    by_contra hnone
    push Not at hnone
    have hpre := h pre (c :: post) heq
    have hlog' : GcLog pre := GcLog.take (heq ▸ hlog)
    have hrows := gcRows_run hnewest hvalid hlog'
    have hstarts : ∀ a ∈ startedAfter pre c.correlationId, a ∈ gcStarts pre := fun a ha =>
      List.mem_reverse.mp ((List.takeWhile_sublist _).subset ha)
    have hopen := (hpre.runningIn_iff (hstarts other hother)).mpr hnone
    -- the last open run is found, and it has started after the one that completes
    obtain ⟨found, hfound⟩ := Option.isSome_iff_exists.mp (List.find?_isSome
      (p := fun a => decide (RunningIn env (Projector.new.projectEach env pre).store a)).mpr
        ⟨other, hother, decide_eq_true hopen⟩)
    have hafter := List.mem_of_find?_eq_some hfound
    have hrunning : RunningIn env (Projector.new.projectEach env pre).store found := by
      simpa using List.find?_some hfound
    have hne : found.correlationId ≠ c.correlationId := by
      simpa using List.mem_takeWhile_imp hafter
    have hstep := h (pre ++ [c]) post (by simp [heq])
    rw [Projector.store_projectEach, List.foldl_append] at hstep
    refine not_matched_of_found hvalid htype (hstarts found hafter) hne
      ((hpre.runningIn_iff (hstarts found hafter)).mp hrunning) ?_ hstep
    rw [← Projector.store_projectEach, foundGc, hrows.runningGc_eq hnewest,
      ← List.takeWhile_append_dropWhile (p := fun a => decide (a.correlationId ≠ c.correlationId))
        (l := (gcStarts pre).reverse), List.find?_append]
    rw [startedAfter] at hfound
    rw [hfound]
    rfl
  · intro hlast pre post heq
    subst heq
    exact gc_matched_run hnewest hvalid hlog.take hlast.take

/-! ## Two runs -/

/-- A collection starts. -/
def sampleGcStart (id run : Uuid) : EventEnvelope :=
  { sampleEvent "RegistryGCStarted" none [] with
    id := id
    correlationId := run }

/-- A collection completes. -/
def sampleGcCompletion (id run : Uuid) : EventEnvelope :=
  { sampleEvent "RegistryGCCompleted" none [] with
    id := id
    correlationId := run }

/-- Of two collections underway the last one to start completes first. -/
def nestedRuns : List EventEnvelope :=
  [sampleGcStart 1 10, sampleGcStart 3 20, sampleGcCompletion 2 20, sampleGcCompletion 4 10]

/-- The first of two collections completes while the second one is underway. -/
def overlappingRuns : List EventEnvelope :=
  [sampleGcStart 1 10, sampleGcStart 3 20, sampleGcCompletion 2 10]

/-- The sample environment, with the order of the engine. -/
def newestEnv : ProjectorEnv :=
  { plainEnv with
    scan := List.reverse
    scan_perm := List.reverse_perm }

/-- What holds at every position holds at every split. -/
theorem forall_split {α : Type} {l : List α} {P : List α → α → Prop}
    (h : ∀ i < l.length, ∀ c ∈ l[i]?, P (l.take i) c) :
    ∀ pre c post, l = pre ++ c :: post → P pre c := by
  rintro pre c post rfl
  have hat := h pre.length (by simp) c (by simp)
  rwa [List.take_left] at hat

theorem gcLog_nestedRuns : GcLog nestedRuns :=
  ⟨by decide, by decide, by decide, by decide,
    forall_split (P := fun pre c => c.eventType = "RegistryGCCompleted" →
      ∃ a ∈ gcStarts pre, a.correlationId = c.correlationId) (by decide)⟩

theorem gcLastFirst_nestedRuns : GcLastFirst nestedRuns := by
  unfold GcLastFirst
  exact forall_split (l := nestedRuns) (P := fun pre c => c.eventType = "RegistryGCCompleted" →
    ∀ other ∈ startedAfter pre c.correlationId,
      ∃ c' ∈ gcCompletions pre, c'.correlationId = other.correlationId) (by decide)

theorem gcLog_overlappingRuns : GcLog overlappingRuns :=
  ⟨by decide, by decide, by decide, by decide,
    forall_split (P := fun pre c => c.eventType = "RegistryGCCompleted" →
      ∃ a ∈ gcStarts pre, a.correlationId = c.correlationId) (by decide)⟩

/-- Runs one within the other. -/
theorem gc_matched_nestedRuns :
    GcMatched newestEnv nestedRuns (Projector.new.projectEach newestEnv nestedRuns).store :=
  (gc_matched_iff newestEnv (fun _ => rfl) (fun _ => rfl) nestedRuns gcLog_nestedRuns).mpr
    gcLastFirst_nestedRuns nestedRuns [] (List.append_nil _).symm

/-- The completion of the first run is put down to the second one. -/
theorem not_gc_matched_overlappingRuns :
    NewestFirst newestEnv ∧ GcIrisValid newestEnv ∧ GcLog overlappingRuns ∧
      ¬ GcMatched newestEnv overlappingRuns
        (Projector.new.projectEach newestEnv overlappingRuns).store := by
  refine ⟨fun _ => rfl, fun _ => rfl, gcLog_overlappingRuns, fun h => ?_⟩
  have hsecond := (h.running (sampleGcStart 3 20) (by decide) (by decide) "status"
    (picloudTerm "Completed")).mp (by decide +kernel)
  simp [runningFacts, picloudTerm, simple] at hsecond

end Picloud
