import Picloud.Lib.Latches
import Picloud.Rdf.Facts
import Picloud.Server.ProductGraph

/-!
# The monitor of data product freshness

Reference: `parse_max_age_seconds` and `check_freshness` of `picloud-http/src/data_product_monitor.rs`, with
`execute_query` of `picloud-rdf` as the query of the projector.

The data products in breach are a latch over the rows that can be read. A data product that is deleted, or whose
values can no longer be read, stays in breach.
-/

namespace Picloud

open Lib Lib.Sparql

/-! ## The check -/

/-- What the monitor takes from its libraries. -/
structure FreshnessEnv where
  server : GraphServer
  /-- `DateTime::parse_from_rfc3339`, in nanoseconds since 1970. -/
  parseRfc3339 : String → Option ℤ
  /-- A number as an `f64`, times a factor, `as u64`. -/
  scaled : String → ℕ → Option ℕ

/-- The loop of `parse_max_age_seconds`; the sum wraps as in a release build. -/
def maxAgeLoop (scaled : String → ℕ → Option ℕ) : List Char → List Char → ℕ → Option ℕ
  | [], _, total => if 0 < total then some total else none
  | c :: cs, buf, total =>
    let add := fun factor => (scaled (String.ofList buf) factor).bind fun seconds =>
      maxAgeLoop scaled cs [] ((total + seconds) % 2 ^ 64)
    if c.isDigit ∨ c = '.' then maxAgeLoop scaled cs (buf ++ [c]) total
    else if c = 'H' ∨ c = 'h' then add 3600
    else if c = 'M' ∨ c = 'm' then add 60
    else if c = 'S' ∨ c = 's' then add 1
    else none

/-- `parse_max_age_seconds`. -/
def parseMaxAgeSeconds (scaled : String → ℕ → Option ℕ) (maxAge : String) : Option ℕ :=
  let s := (trim maxAge).toList
  if "PT".toList <+: s ∨ "pt".toList <+: s then maxAgeLoop scaled (s.drop 2) [] 0
  else (parseNat (String.ofList s)).filter (· < 2 ^ 64)

/-- The query of `check_freshness`. -/
def freshnessQuery : String :=
  "\n            PREFIX pc: <https://picloud.local/ontology#>\n            " ++
    "SELECT ?dp ?lastRefreshed ?maxAge WHERE \x7b\n                ?dp a pc:DataProduct .\n" ++
    "                ?dp pc:lastRefreshed ?lastRefreshed .\n                ?dp pc:maxAge ?maxAge .\n" ++
    "            \x7d\n        "

/-- Its pattern: the three triples of a data product. -/
def freshnessPattern : GraphPattern := .basic fun row triples =>
  (triples.filter fun t => t.predicate = ⟨rdfType⟩ ∧ t.object = picloudTerm "DataProduct").flatMap fun t =>
    (triples.filter fun u => u.subject = t.subject ∧ u.predicate = ⟨pc "lastRefreshed"⟩).flatMap fun u =>
      (triples.filter fun v => v.subject = t.subject ∧ v.predicate = ⟨pc "maxAge"⟩).filterMap fun v =>
        merge row [("dp", t.subject.toTerm), ("lastRefreshed", u.object), ("maxAge", v.object)]

/-- SPARQL reads the query as it is written. -/
def ReadsFreshnessQuery (env : FreshnessEnv) : Prop :=
  env.server.parse freshnessQuery = .ok ⟨none, freshnessPattern, .select ["dp", "lastRefreshed", "maxAge"]⟩

/-- `DataProductSLOAction`, with its payloads. -/
inductive DataProductSLOAction where
  | breach (dataProductIri maxAge : String) (actualAgeSeconds : ℕ)
  | restore (dataProductIri : String) (refreshedAt : ℤ)
deriving DecidableEq

/-- The text of a value, or the value itself if it is a text. -/
def boundText (binding : Json) (name : String) : Option String :=
  (binding.get? name).bind fun v => ((v.get? "value").bind Json.asStr).or v.asStr

/-- `actual_age_seconds`. -/
def ageSeconds (now lastRefreshed : ℤ) : ℕ := (Int.tdiv (now - lastRefreshed) 1000000000).toNat

/-- What is read of a data product. -/
structure FreshnessReading where
  iri : String
  maxAge : String
  lastRefreshed : ℤ
  ageSeconds : ℕ
  maxAgeSeconds : ℕ

/-- A row, if all of it can be read. -/
def readFreshness (env : FreshnessEnv) (now : ℤ) (binding : Json) : Option FreshnessReading := do
  let iri ← boundText binding "dp"
  let lastRefreshedText ← boundText binding "lastRefreshed"
  let maxAge ← boundText binding "maxAge"
  let lastRefreshed ← env.parseRfc3339 lastRefreshedText
  let maxAgeSeconds ← parseMaxAgeSeconds env.scaled maxAge
  return ⟨iri, maxAge, lastRefreshed, ageSeconds now lastRefreshed, maxAgeSeconds⟩

/-- One row of the loop: the data products in breach, and the action if there is one. -/
def checkRow (env : FreshnessEnv) (now : ℤ) (breached : List String) (binding : Json) :
    List String × List DataProductSLOAction :=
  match readFreshness env now binding with
  | none => (breached, [])
  | some r =>
    if r.maxAgeSeconds < r.ageSeconds then
      if r.iri ∈ breached then (breached, [])
      else (r.iri :: breached, [.breach r.iri r.maxAge r.ageSeconds])
    else if r.iri ∈ breached then (breached.filter (· ≠ r.iri), [.restore r.iri r.lastRefreshed])
    else (breached, [])

/-- The loop over the rows. -/
def checkRows (env : FreshnessEnv) (now : ℤ) (breached : List String) :
    List Json → List String × List DataProductSLOAction
  | [] => (breached, [])
  | binding :: bindings =>
    let first := checkRow env now breached binding
    let rest := checkRows env now first.1 bindings
    (rest.1, first.2 ++ rest.2)

/-- `check_freshness`: a query that fails changes nothing. -/
def checkFreshness (env : FreshnessEnv) (breached : List String) (store : Store) (now : ℤ) :
    Except PiCloudError (List DataProductSLOAction) × List String :=
  match executeQuery env.server store freshnessQuery with
  | .error e => (.error e, breached)
  | .ok bindings => (.ok (checkRows env now breached bindings).2, (checkRows env now breached bindings).1)

/-- Checks one after the other: the actions of all of them, and the data products in breach. -/
def checkEach (env : FreshnessEnv) : List String → List (Store × ℤ) → List DataProductSLOAction × List String
  | breached, [] => ([], breached)
  | breached, (store, now) :: checks =>
    let first := checkFreshness env breached store now
    let rest := checkEach env first.2 checks
    ((match first.1 with
      | .ok actions => actions
      | .error _ => []) ++ rest.1, rest.2)

/-! ## What is claimed, and when it holds -/

/-- A graph in which the data products are IRIs with at most one value of each property. -/
structure FreshnessGraph (s : Store) : Prop where
  named : ∀ x, IsA s x "DataProduct" → ∃ iri, x = .named ⟨iri⟩
  lastRefreshed : ∀ iri o o', Has s iri "lastRefreshed" o → Has s iri "lastRefreshed" o' → o = o'
  maxAge : ∀ iri o o', Has s iri "maxAge" o → Has s iri "maxAge" o' → o = o'

/-- The data product is in the graph, with a time and an age that can be read. -/
def ReadableWith (env : FreshnessEnv) (s : Store) (iri : String) (refreshed : ℤ) (seconds : ℕ) : Prop :=
  IsA s (.named ⟨iri⟩) "DataProduct" ∧ ∃ r m, Has s iri "lastRefreshed" r ∧ Has s iri "maxAge" m ∧
    env.parseRfc3339 (termText r) = some refreshed ∧ parseMaxAgeSeconds env.scaled (termText m) = some seconds

/-- The data product exists, and its age exceeds its maximum. -/
def Exceeds (env : FreshnessEnv) (check : Store × ℤ) (iri : String) : Prop :=
  ∃ refreshed seconds, ReadableWith env check.1 iri refreshed seconds ∧ seconds < ageSeconds check.2 refreshed

/-- The data product exists, and its values can be read. -/
def ReadableAt (env : FreshnessEnv) (check : Store × ℤ) (iri : String) : Prop :=
  ∃ refreshed seconds, ReadableWith env check.1 iri refreshed seconds

/-- What an action reports: a breach or not. -/
def DataProductSLOAction.report : DataProductSLOAction → String × Bool
  | .breach iri _ _ => (iri, true)
  | .restore iri _ => (iri, false)

/-- The reports about a data product, one after the other. -/
def sloReports (actions : List DataProductSLOAction) (iri : String) : List Bool :=
  reportsOf iri (actions.map DataProductSLOAction.report)

/-- The actions about a data product alternate, the first being a breach; and after every check the last action is
a breach for the data products that exceed their age. -/
structure FollowsFreshness (env : FreshnessEnv) (checks : List (Store × ℤ)) : Prop where
  alternate : ∀ iri, Alternates false (sloReports (checkEach env [] checks).1 iri)
  current : ∀ before check after, checks = before ++ check :: after → ∀ iri,
    (sloReports (checkEach env [] (before ++ [check])).1 iri).getLast? = some true ↔ Exceeds env check iri

/-- A data product that exceeds its age is there at the next check, and its values can be read. -/
def StaysReadable (env : FreshnessEnv) (checks : List (Store × ℤ)) : Prop :=
  ∀ before check next after, checks = before ++ check :: next :: after → ∀ iri,
    Exceeds env check iri → ReadableAt env next iri

/-! ## What the monitor reads -/

section Reading

variable {env : FreshnessEnv} {store : Store} {now : ℤ} {iri : String} {b : Bool}

/-- The columns of the query. -/
def freshnessColumns : List String := ["dp", "lastRefreshed", "maxAge"]

/-- A value has its text, however it is written. -/
theorem boundText_rowToJson {name : String} (h : name ∈ freshnessColumns) (row : Row) :
    boundText (rowToJson freshnessColumns row) name = (row.get name).map termText := by
  rw [boundText, get?_rowToJson h]
  cases row.get name with
  | none => rfl
  | some t => cases t <;> rfl

/-- The solution of a data product. -/
def freshnessRow (x : Subject) (r m : Term) : Row := [("maxAge", m), ("lastRefreshed", r), ("dp", x.toTerm)]

/-- The solutions of the query are the data products with their values. -/
theorem exists_freshnessRows (hreads : ReadsFreshnessQuery env) (store : Store) : ∃ rows : List Row,
    executeQuery env.server store freshnessQuery = .ok (rows.map (rowToJson freshnessColumns)) ∧
    ∀ row, row ∈ rows ↔ ∃ x r m, IsA store x "DataProduct" ∧ ⟨x, ⟨pc "lastRefreshed"⟩, r, .default⟩ ∈ store ∧
      ⟨x, ⟨pc "maxAge"⟩, m, .default⟩ ∈ store ∧ row = freshnessRow x r m := by
  refine ⟨(((triplesIn store .default).filter fun t => t.predicate = ⟨rdfType⟩ ∧
    t.object = picloudTerm "DataProduct").flatMap fun t => ((triplesIn store .default).filter fun u =>
      u.subject = t.subject ∧ u.predicate = ⟨pc "lastRefreshed"⟩).flatMap fun u =>
        ((triplesIn store .default).filter fun v => v.subject = t.subject ∧ v.predicate = ⟨pc "maxAge"⟩).filterMap
          fun v => merge [] [("dp", t.subject.toTerm), ("lastRefreshed", u.object), ("maxAge", v.object)]), ?_, ?_⟩
  · rw [executeQuery, runQuery, hreads]
    rfl
  · intro row
    simp only [List.mem_flatMap, List.mem_filterMap, List.mem_filter, decide_eq_true_eq, mem_triplesIn]
    constructor
    · rintro ⟨⟨x, p, o⟩, ⟨ht, rfl, rfl⟩, ⟨y, p, r⟩, ⟨hu, rfl, rfl⟩, ⟨z, p, m⟩, ⟨hv, rfl, rfl⟩, hmerge⟩
      exact ⟨_, r, m, ht, hu, hv, (Option.some.inj hmerge).symm⟩
    · rintro ⟨x, r, m, ht, hu, hv, rfl⟩
      exact ⟨⟨x, ⟨rdfType⟩, picloudTerm "DataProduct"⟩, ⟨ht, rfl, rfl⟩, ⟨x, ⟨pc "lastRefreshed"⟩, r⟩, ⟨hu, rfl, rfl⟩,
        ⟨x, ⟨pc "maxAge"⟩, m⟩, ⟨hv, rfl, rfl⟩, rfl⟩

/-- The reading of a row: whether the data product exceeds its age. -/
def freshnessReading (env : FreshnessEnv) (now : ℤ) (binding : Json) : Option (String × Bool) :=
  (readFreshness env now binding).map fun r => (r.iri, decide (r.maxAgeSeconds < r.ageSeconds))

/-- The readings of a check. -/
def freshnessReadings (env : FreshnessEnv) (check : Store × ℤ) : List (String × Bool) :=
  match executeQuery env.server check.1 freshnessQuery with
  | .error _ => []
  | .ok bindings => bindings.filterMap (freshnessReading env check.2)

theorem freshnessReading_row {x : Subject} {r m : Term} :
    freshnessReading env now (rowToJson freshnessColumns (freshnessRow x r m)) = some (iri, b) ↔
      termText x.toTerm = iri ∧ ∃ refreshed seconds, env.parseRfc3339 (termText r) = some refreshed ∧
        parseMaxAgeSeconds env.scaled (termText m) = some seconds ∧
        b = decide (seconds < ageSeconds now refreshed) := by
  have hdp : Assoc.get (freshnessRow x r m) "dp" = some x.toTerm := rfl
  have hrefreshed : Assoc.get (freshnessRow x r m) "lastRefreshed" = some r := rfl
  have hmaxAge : Assoc.get (freshnessRow x r m) "maxAge" = some m := rfl
  rw [freshnessReading, readFreshness, boundText_rowToJson (by simp [freshnessColumns]), hdp,
    boundText_rowToJson (by simp [freshnessColumns]), hrefreshed, boundText_rowToJson (by simp [freshnessColumns]),
    hmaxAge]
  simp only [Option.map_some, bind, Option.bind_some]
  cases hrfc : env.parseRfc3339 (termText r) with
  | none => simp
  | some refreshed =>
    cases hseconds : parseMaxAgeSeconds env.scaled (termText m) with
    | none => simp
    | some seconds => simp [eq_comm]

variable {check : Store × ℤ}

/-- The readings are of the data products that can be read. -/
theorem mem_freshnessReadings (hreads : ReadsFreshnessQuery env) (hgraph : FreshnessGraph check.1) :
    (iri, b) ∈ freshnessReadings env check ↔ ∃ refreshed seconds, ReadableWith env check.1 iri refreshed seconds ∧
      b = decide (seconds < ageSeconds check.2 refreshed) := by
  obtain ⟨rows, hquery, hrows⟩ := exists_freshnessRows hreads check.1
  rw [freshnessReadings, hquery]
  dsimp only
  rw [List.mem_filterMap]
  constructor
  · rintro ⟨binding, hbinding, hreading⟩
    obtain ⟨row, hrow, rfl⟩ := List.mem_map.mp hbinding
    obtain ⟨x, r, m, hx, hr, hm, rfl⟩ := (hrows row).mp hrow
    obtain ⟨htext, refreshed, seconds, hrefreshed, hseconds, hb⟩ := freshnessReading_row.mp hreading
    obtain ⟨name, rfl⟩ := hgraph.named x hx
    obtain rfl : name = iri := htext
    exact ⟨refreshed, seconds, ⟨hx, r, m, hr, hm, hrefreshed, hseconds⟩, hb⟩
  · rintro ⟨refreshed, seconds, ⟨hx, r, m, hr, hm, hrefreshed, hseconds⟩, hb⟩
    refine ⟨_, List.mem_map_of_mem ((hrows (freshnessRow (.named ⟨iri⟩) r m)).mpr ⟨_, r, m, hx, hr, hm, rfl⟩), ?_⟩
    exact freshnessReading_row.mpr ⟨rfl, refreshed, seconds, hrefreshed, hseconds, hb⟩

theorem mem_freshnessReadings_true (hreads : ReadsFreshnessQuery env)
    (hgraph : FreshnessGraph check.1) :
    (iri, true) ∈ freshnessReadings env check ↔ Exceeds env check iri := by
  rw [mem_freshnessReadings hreads hgraph, Exceeds]
  simp only [eq_comm (a := true), decide_eq_true_eq]

theorem reads_freshnessReadings (hreads : ReadsFreshnessQuery env) (hgraph : FreshnessGraph check.1) :
    Lib.Reads (freshnessReadings env check) iri ↔ ReadableAt env check iri := by
  rw [Lib.Reads, mem_freshnessReadings hreads hgraph, mem_freshnessReadings hreads hgraph, ReadableAt]
  constructor
  · rintro (⟨refreshed, seconds, h, -⟩ | ⟨refreshed, seconds, h, -⟩)
    · exact ⟨refreshed, seconds, h⟩
    · exact ⟨refreshed, seconds, h⟩
  · rintro ⟨refreshed, seconds, h⟩
    by_cases hage : seconds < ageSeconds check.2 refreshed
    · exact Or.inl ⟨refreshed, seconds, h, (decide_eq_true hage).symm⟩
    · exact Or.inr ⟨refreshed, seconds, h, (decide_eq_false hage).symm⟩

/-- With one value of each property no data product is read as both. -/
theorem consistent_freshnessReadings (hreads : ReadsFreshnessQuery env)
    (hgraph : FreshnessGraph check.1) : Consistent (freshnessReadings env check) := by
  intro iri hset hunset
  obtain ⟨refreshed, seconds, ⟨-, r, m, hr, hm, hrefreshed, hseconds⟩, hage⟩ :=
    (mem_freshnessReadings hreads hgraph).mp hset
  obtain ⟨refreshed', seconds', ⟨-, r', m', hr', hm', hrefreshed', hseconds'⟩, hage'⟩ :=
    (mem_freshnessReadings hreads hgraph).mp hunset
  rw [hgraph.lastRefreshed iri r' r hr' hr, hrefreshed] at hrefreshed'
  rw [hgraph.maxAge iri m' m hm' hm, hseconds] at hseconds'
  obtain rfl := Option.some.inj hrefreshed'
  obtain rfl := Option.some.inj hseconds'
  rw [← hage] at hage'
  cases hage'

/-! ## The monitor is a latch -/

theorem checkRow_eq (breached : List String) (binding : Json) :
    ((checkRow env now breached binding).1, (checkRow env now breached binding).2.map DataProductSLOAction.report) =
      latch breached (freshnessReading env now binding).toList := by
  rw [checkRow, freshnessReading]
  cases readFreshness env now binding with
  | none => rfl
  | some r =>
    rw [Option.map_some, Option.toList_some]
    simp only [latch, latchStep, decide_eq_true_eq, List.append_nil]
    split_ifs with hage hbreached <;> simp [DataProductSLOAction.report, hage]

theorem checkRows_eq (breached : List String) (bindings : List Json) :
    ((checkRows env now breached bindings).1, (checkRows env now breached bindings).2.map DataProductSLOAction.report) =
      latch breached (bindings.filterMap (freshnessReading env now)) := by
  induction bindings generalizing breached with
  | nil => rfl
  | cons binding bindings ih =>
    have hcons : (binding :: bindings).filterMap (freshnessReading env now) =
        (freshnessReading env now binding).toList ++ bindings.filterMap (freshnessReading env now) := by
      rw [List.filterMap_cons]
      cases freshnessReading env now binding <;> rfl
    rw [hcons, latch_append, ← checkRow_eq, ← ih, checkRows, List.map_append]

/-- Each check is a round of the latch. -/
theorem checkEach_eq (breached : List String) (checks : List (Store × ℤ)) :
    ((checkEach env breached checks).2, (checkEach env breached checks).1.map DataProductSLOAction.report) =
      latchRun breached (checks.map (freshnessReadings env)) := by
  induction checks generalizing breached with
  | nil => rfl
  | cons check checks ih =>
    obtain ⟨store, now⟩ := check
    rw [List.map_cons, latchRun, freshnessReadings, checkEach, checkFreshness]
    cases executeQuery env.server store freshnessQuery with
    | error e =>
      dsimp only
      rw [latch, ← ih]
      rfl
    | ok bindings =>
      dsimp only
      rw [← checkRows_eq, ← ih, List.map_append]

/-- What is last reported is what is in breach. -/
theorem getLast?_sloReports (checks : List (Store × ℤ)) :
    (sloReports (checkEach env [] checks).1 iri).getLast? = some true ↔
      iri ∈ (latchRun [] (checks.map (freshnessReadings env))).1 := by
  have htracks := (tracks_latchRun iri [] (checks.map (freshnessReadings env))).2
  rw [← checkEach_eq] at htracks ⊢
  refine Iff.trans ?_ decide_eq_true_iff
  rw [htracks, sloReports]
  simp only [List.not_mem_nil, decide_false, List.getLastD_eq_getLast?]
  cases (reportsOf iri (List.map DataProductSLOAction.report (checkEach env [] checks).1)).getLast? <;> simp

end Reading

/-! ## The exact condition -/

/-- **Breaches and restorations follow the freshness of the data products exactly when each data product that exceeds
its age is there at the next check, and can be read.** -/
theorem followsFreshness_iff (env : FreshnessEnv) (hreads : ReadsFreshnessQuery env) (checks : List (Store × ℤ))
    (hgraphs : ∀ check ∈ checks, FreshnessGraph check.1) : FollowsFreshness env checks ↔ StaysReadable env checks := by
  have hconsistent : ∀ rs ∈ checks.map (freshnessReadings env), Consistent rs := by
    intro rs hrs
    obtain ⟨check, hcheck, rfl⟩ := List.mem_map.mp hrs
    exact consistent_freshnessReadings hreads (hgraphs check hcheck)
  have hheld := held_iff hconsistent []
  have hcurrent : (∀ before check after, checks = before ++ check :: after → ∀ iri,
      (sloReports (checkEach env [] (before ++ [check])).1 iri).getLast? = some true ↔ Exceeds env check iri) ↔
      (∀ before rs after, checks.map (freshnessReadings env) = before ++ rs :: after → ∀ p,
        p ∈ (latchRun [] (before ++ [rs])).1 ↔ (p, true) ∈ rs) := by
    constructor
    · intro h before rs after heq p
      obtain ⟨before, rest, rfl, rfl, hrest⟩ := List.map_eq_append_iff.mp heq
      obtain ⟨check, after, rfl, rfl, rfl⟩ := List.map_eq_cons_iff.mp hrest
      have hlast := h before check after rfl p
      rw [getLast?_sloReports, List.map_append] at hlast
      rw [mem_freshnessReadings_true hreads (hgraphs check (by simp))]
      exact hlast
    · rintro h before check after rfl iri
      rw [getLast?_sloReports, List.map_append]
      have hlatch := h (before.map (freshnessReadings env)) (freshnessReadings env check)
        (after.map (freshnessReadings env)) (by simp) iri
      rw [mem_freshnessReadings_true hreads (hgraphs check (by simp))] at hlatch
      exact hlatch
  have hstays : StaysReadable env checks ↔ ∀ before rs rs' after,
      checks.map (freshnessReadings env) = before ++ rs :: rs' :: after → ∀ p, (p, true) ∈ rs → Lib.Reads rs' p := by
    constructor
    · intro h before rs rs' after heq p hp
      obtain ⟨before, rest, rfl, rfl, hrest⟩ := List.map_eq_append_iff.mp heq
      obtain ⟨check, rest', rfl, rfl, hrest'⟩ := List.map_eq_cons_iff.mp hrest
      obtain ⟨next, after, rfl, rfl, rfl⟩ := List.map_eq_cons_iff.mp hrest'
      rw [mem_freshnessReadings_true hreads (hgraphs check (by simp))] at hp
      rw [reads_freshnessReadings hreads (hgraphs next (by simp))]
      exact h before check next after rfl p hp
    · rintro h before check next after rfl iri hexceeds
      have hreads' := h (before.map (freshnessReadings env)) (freshnessReadings env check)
        (freshnessReadings env next) (after.map (freshnessReadings env)) (by simp) iri
      rw [mem_freshnessReadings_true hreads (hgraphs check (by simp)),
        reads_freshnessReadings hreads (hgraphs next (by simp))] at hreads'
      exact hreads' hexceeds
  rw [hstays]
  constructor
  · intro h
    exact (hheld.mp (hcurrent.mp h.current)).2
  · intro h
    refine ⟨fun iri => ?_, hcurrent.mpr (hheld.mpr ⟨by simp, h⟩)⟩
    have halternates := (tracks_latchRun iri [] (checks.map (freshnessReadings env))).1
    rw [← checkEach_eq] at halternates
    simpa [sloReports] using halternates

/-! ## A data product that is deleted in breach -/

/-- The data product of the samples. -/
def photosIri : String := "https://picloud.local/products/gallery/data-products/photos"

/-- The data product, refreshed in 1970, with a maximum age of one hour. -/
def photosGraph : Store :=
  [quad photosIri rdfType (picloudTerm "DataProduct") .default,
    quad photosIri (pc "lastRefreshed") (simple "1970-01-01T00:00:00Z") .default,
    quad photosIri (pc "maxAge") (simple "PT1H") .default]

/-- Reads the query of the monitor. -/
def parseFreshness (text : String) : Except String Query :=
  if text = freshnessQuery then .ok ⟨none, freshnessPattern, .select ["dp", "lastRefreshed", "maxAge"]⟩
  else .error "no sample"

/-- Reads the start of 1970. -/
def parseEpoch (text : String) : Option ℤ := if text = "1970-01-01T00:00:00Z" then some 0 else none

/-- Reads the query, the start of 1970, and whole numbers. -/
def sampleFreshness : FreshnessEnv where
  server := { shopServer with parse := parseFreshness }
  parseRfc3339 := parseEpoch
  scaled text factor := (parseNat text).map fun n => min (n * factor) (2 ^ 64 - 1)

theorem parse_sampleFreshness : sampleFreshness.server.parse = parseFreshness := rfl

theorem readsFreshnessQuery_sample : ReadsFreshnessQuery sampleFreshness := by
  unfold ReadsFreshnessQuery
  rw [parse_sampleFreshness, parseFreshness, if_pos rfl]

theorem freshnessGraph_photos : FreshnessGraph photosGraph where
  named x h := ⟨photosIri, by simpa [IsA, photosGraph, quad] using h⟩
  lastRefreshed iri o o' h h' := by
    simp only [Has, photosGraph, quad, List.mem_cons, Quad.mk.injEq, List.not_mem_nil, or_false] at h h'
    simp_all
  maxAge iri o o' h h' := by
    simp only [Has, photosGraph, quad, List.mem_cons, Quad.mk.injEq, List.not_mem_nil, or_false] at h h'
    simp_all

/-- Some hours after the start of 1970. -/
def hoursLater (n : ℤ) : ℤ := n * 3600000000000

theorem exceeds_photos : Exceeds sampleFreshness (photosGraph, hoursLater 2) photosIri := by
  have hrefreshed : sampleFreshness.parseRfc3339 (termText (simple "1970-01-01T00:00:00Z")) = some 0 := by
    decide +kernel
  have hmaxAge : parseMaxAgeSeconds sampleFreshness.scaled (termText (simple "PT1H")) = some 3600 := by
    decide +kernel
  refine ⟨0, 3600, ⟨?_, _, _, ?_, ?_, hrefreshed, hmaxAge⟩, by decide⟩
  · simp [IsA, photosGraph, quad]
  · simp [Has, photosGraph, quad]
  · simp [Has, photosGraph, quad]

/-- As long as the data product is there, the monitor follows it. -/
theorem followsFreshness_photos : FollowsFreshness sampleFreshness
    [(photosGraph, hoursLater 0), (photosGraph, hoursLater 2), (photosGraph, hoursLater 3)] := by
  have hsame : ∀ check ∈ [(photosGraph, hoursLater 0), (photosGraph, hoursLater 2), (photosGraph, hoursLater 3)],
      check.1 = photosGraph := by simp
  refine (followsFreshness_iff sampleFreshness readsFreshnessQuery_sample _ fun check hcheck => ?_).mpr ?_
  · rw [hsame check hcheck]
    exact freshnessGraph_photos
  · rintro before check next after heq iri ⟨refreshed, seconds, hreadable, -⟩
    rw [hsame check (by rw [heq]; simp)] at hreadable
    refine ⟨refreshed, seconds, ?_⟩
    rw [hsame next (by rw [heq]; simp)]
    exact hreadable

/-- A data product that is deleted in breach stays in breach. -/
theorem not_followsFreshness_deleted :
    ¬ FollowsFreshness sampleFreshness [(photosGraph, hoursLater 2), ([], hoursLater 3)] := by
  intro h
  have hempty : FreshnessGraph [] :=
    { named x hx := by simp [IsA] at hx
      lastRefreshed iri o o' ho := by simp [Has] at ho
      maxAge iri o o' ho := by simp [Has] at ho }
  have hphotos : Consistent (freshnessReadings sampleFreshness (photosGraph, hoursLater 2)) :=
    consistent_freshnessReadings readsFreshnessQuery_sample freshnessGraph_photos
  have hdeleted : Consistent (freshnessReadings sampleFreshness ([], hoursLater 3)) :=
    consistent_freshnessReadings readsFreshnessQuery_sample hempty
  have hgone : (photosIri, false) ∉ freshnessReadings sampleFreshness ([], hoursLater 3) := by
    intro hread
    obtain ⟨refreshed, seconds, ⟨hproduct, -⟩, -⟩ :=
      (mem_freshnessReadings readsFreshnessQuery_sample hempty).mp hread
    simp [IsA] at hproduct
  have hbreach : (photosIri, true) ∈ freshnessReadings sampleFreshness (photosGraph, hoursLater 2) :=
    (mem_freshnessReadings_true readsFreshnessQuery_sample freshnessGraph_photos).mpr exceeds_photos
  -- the check after the deletion reads nothing, so the latch holds what it held
  have hheld : photosIri ∈ (latchRun [] [freshnessReadings sampleFreshness (photosGraph, hoursLater 2),
      freshnessReadings sampleFreshness ([], hoursLater 3)]).1 :=
    mem_latchRun_unread hphotos hdeleted hbreach hgone
  have hlast := h.current [(photosGraph, hoursLater 2)] ([], hoursLater 3) [] rfl photosIri
  rw [getLast?_sloReports] at hlast
  obtain ⟨refreshed, seconds, ⟨hproduct, -⟩, -⟩ := hlast.mp hheld
  simp [IsA] at hproduct

end Picloud
