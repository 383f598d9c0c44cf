import Picloud.Apply.Handlers
import Picloud.Lib.PaddedOrder

/-!
# Resolving a capability

Reference: `resolve_implementor` of `picloud-http/src/capability.rs`.

Two loops compare versions number by number. Both look for the first difference of the sequences of
numbers, a version that ends going on with zeros (`versionCmp_eq_lt`), so they agree with each other
and with the comparison of data products, and the choice among the implementors is a greatest version
(`resolveImplementor_picksHighest`). The query is a parameter.
-/

namespace Picloud

open Lib

/-! ## Comparing versions -/

/-- The loop of `version_satisfies`, over the places that are left. -/
def satisfiesAt (o r : List ℕ) : List ℕ → Bool
  | [] => true
  | i :: places =>
    let ov := o.getD i 0
    let rv := r.getD i 0
    if ov > rv then true
    else if ov < rv then false
    else satisfiesAt o r places

/-- `version_satisfies`. -/
def versionSatisfies (offered required : String) : Bool :=
  let o := versionParts offered
  let r := versionParts required
  satisfiesAt o r (List.range (max o.length r.length))

/-- `version_cmp`. -/
def versionCmp (a b : String) : Ordering :=
  let va := versionParts a
  let vb := versionParts b
  compareAt (va.getD · 0) (vb.getD · 0) (List.range (max va.length vb.length))

/-! ## Resolving -/

/-- `CapabilityResolution`. -/
structure CapabilityResolution where
  capabilityName : String
  implementorProduct : String
  implementorVersion : String
deriving DecidableEq

/-- The errors of `resolve_implementor`. -/
inductive ResolveError where
  | query (e : PiCloudError)
  | capabilityUnfulfilled (capability minVersion : String)
deriving DecidableEq

/-- The query for the implementors of a capability. -/
def implementorQuery (name : String) : String :=
  "\n            PREFIX picloud: <https://picloud.local/ontology#>\n" ++
  "            PREFIX rdf: <http://www.w3.org/1999/02/22-rdf-syntax-ns#>\n" ++
  "            SELECT ?capability ?version ?product WHERE \x7b\n" ++
  "                ?capability rdf:type picloud:Capability .\n" ++
  "                ?capability picloud:name \"" ++ name ++ "\" .\n" ++
  "                ?capability picloud:version ?version .\n" ++
  "                ?capability picloud:implementedBy ?product .\n" ++
  "            \x7d\n            "

/-- The text of a variable in a row: the binding itself, or its value. -/
def bindingText (binding : Json) (name : String) : String :=
  ((binding.index name).asStr.or ((binding.index name).index "value").asStr).getD ""

/-- What follows the last occurrence of a text. -/
def behindLast (pat : List Char) : List Char → Option (List Char)
  | [] => none
  | c :: s =>
    match behindLast pat s with
    | some rest => some rest
    | none => if pat <+: c :: s then some ((c :: s).drop pat.length) else none

/-- The name of a product in its IRI. -/
def implementorName (productIri : String) : String :=
  String.ofList (((behindLast "/products/".toList productIri.toList).getD productIri.toList).takeWhile
    (· ≠ '/'))

/-- What is returned for a row. -/
def resolutionOf (capabilityName : String) (binding : Json) : CapabilityResolution where
  capabilityName := capabilityName
  implementorProduct := implementorName (bindingText binding "product")
  implementorVersion := bindingText binding "version"

/-- The row is of a later version than what has been found. -/
def isBetter (binding : Json) (current : CapabilityResolution) : Bool :=
  versionCmp (bindingText binding "version") current.implementorVersion = .gt

/-- `resolve_implementor`, with the query of the projector. -/
def resolveImplementor (query : String → Except PiCloudError (List Json))
    (capabilityName minVersion : String) : Except ResolveError CapabilityResolution :=
  match query (implementorQuery capabilityName) with
  | .error e => .error (.query e)
  | .ok bindings =>
    match selectBest (fun binding => versionSatisfies (bindingText binding "version") minVersion)
        isBetter (resolutionOf capabilityName) none bindings with
    | some best => .ok best
    | none => .error (.capabilityUnfulfilled capabilityName minVersion)

/-! ## The name of the implementor -/

/-! ## Versions as sequences of numbers -/

/-- The numbers of a version, as the code reads them. -/
def readVersion (v : String) : Lex (ℕ → ℕ) := Lib.padded 0 (versionParts v)

variable {a b : String}

theorem versionCmp_eq_lt : versionCmp a b = .lt ↔ readVersion a < readVersion b :=
  compareAt_getD_eq_lt 0 _ _

theorem versionCmp_swap (a b : String) : versionCmp b a = (versionCmp a b).swap := by
  unfold versionCmp
  dsimp only
  rw [max_comm]
  exact compareAt_swap _ _ _

theorem versionCmp_eq_gt : versionCmp a b = .gt ↔ readVersion b < readVersion a := by
  rw [← versionCmp_eq_lt, versionCmp_swap a b, Ordering.swap_eq_lt]

theorem versionCmp_ne_gt : versionCmp a b ≠ .gt ↔ readVersion a ≤ readVersion b := by
  rw [Ne, versionCmp_eq_gt]
  exact not_lt

theorem versionCmp_self (a : String) : versionCmp a a = .eq := by
  have hlt : versionCmp a a ≠ .lt := fun h => lt_irrefl _ (versionCmp_eq_lt.mp h)
  have hgt : versionCmp a a ≠ .gt := fun h => lt_irrefl _ (versionCmp_eq_gt.mp h)
  cases h : versionCmp a a with
  | lt => exact absurd h hlt
  | eq => rfl
  | gt => exact absurd h hgt

/-- The two loops go the same way. -/
theorem satisfiesAt_iff (o r : List ℕ) (places : List ℕ) :
    satisfiesAt o r places = true ↔ compareAt (o.getD · 0) (r.getD · 0) places ≠ .lt := by
  induction places with
  | nil => simp [satisfiesAt, compareAt]
  | cons i places ih =>
    rcases lt_trichotomy (o.getD i 0) (r.getD i 0) with h | h | h
    · simp only [satisfiesAt, compareAt, compare_lt_iff_lt.mpr h, if_pos h, if_neg (lt_asymm h)]
      simp
    · simp only [satisfiesAt, compareAt, compare_eq_iff_eq.mpr h]
      rw [if_neg h.not_gt, if_neg h.not_lt]
      exact ih
    · simp only [satisfiesAt, compareAt, compare_gt_iff_gt.mpr h, if_pos h]
      simp

theorem versionSatisfies_iff (a b : String) : versionSatisfies a b = true ↔ versionCmp a b ≠ .lt :=
  satisfiesAt_iff _ _ _

theorem versionSatisfies_iff_le :
    versionSatisfies a b = true ↔ readVersion b ≤ readVersion a := by
  rw [versionSatisfies_iff, Ne, versionCmp_eq_lt]
  exact not_lt

/-! ## Dotted numbers -/

/-- The parts between the dots. -/
def dottedParts (v : String) : List (List Char) := v.toList.splitOn '.'

/-- A version of dotted numbers, each of them below 2^64. -/
def IsVersion (v : String) : Prop :=
  ∀ part ∈ dottedParts v, part ≠ [] ∧ part.all Char.isDigit ∧ Nat.ofDigitChars 10 part 0 < 2 ^ 64

/-- The numbers of a version, with zeros behind them. -/
def versionNumbers (v : String) : Lex (ℕ → ℕ) :=
  Lib.padded 0 ((dottedParts v).map fun part => Nat.ofDigitChars 10 part 0)

/-- Digits are read as their number. -/
theorem parseU64_digits {part : List Char} (hne : part ≠ []) (hdigits : part.all Char.isDigit = true)
    (hlt : Nat.ofDigitChars 10 part 0 < 2 ^ 64) :
    parseU64 (String.ofList part) = some (Nat.ofDigitChars 10 part 0) := by
  have hparse : parseNat (String.ofList part) = some (Nat.ofDigitChars 10 part 0) := by
    cases part with
    | nil => exact absurd rfl hne
    | cons c cs =>
      -- a sign would be no digit
      have hc : c ≠ '+' := by
        rintro rfl
        exact absurd (List.all_eq_true.mp hdigits '+' List.mem_cons_self) (by decide)
      rw [parseNat, String.toList_ofList]
      simp [hc, hdigits]
  rw [parseU64, hparse, Option.filter_some, if_pos (by simpa using hlt)]

theorem readVersion_eq {v : String} (h : IsVersion v) : readVersion v = versionNumbers v := by
  have hparts : versionParts v = (dottedParts v).map fun part => Nat.ofDigitChars 10 part 0 := by
    refine List.map_congr_left fun part hpart => ?_
    obtain ⟨hne, hdigits, hlt⟩ := h part hpart
    rw [parseU64_digits hne hdigits hlt, Option.getD_some]
  rw [readVersion, hparts, versionNumbers]

/-! ## The choice -/

/-- Resolving a capability to what some rows say: it fails when no version is high enough, and
otherwise returns a row of the highest version; another order of the rows leads to an equal one. -/
structure PicksHighest (capabilityName minVersion : String) (bindings : List Json) : Prop where
  fails_iff : ∀ query, query (implementorQuery capabilityName) = .ok bindings →
    (resolveImplementor query capabilityName minVersion =
        .error (.capabilityUnfulfilled capabilityName minVersion) ↔
      ∀ b ∈ bindings, ¬ versionNumbers minVersion ≤ versionNumbers (bindingText b "version"))
  highest : ∀ query, query (implementorQuery capabilityName) = .ok bindings →
    (∃ b ∈ bindings, versionNumbers minVersion ≤ versionNumbers (bindingText b "version")) →
    ∃ b ∈ bindings, versionNumbers minVersion ≤ versionNumbers (bindingText b "version") ∧
      (∀ b' ∈ bindings,
        versionNumbers (bindingText b' "version") ≤ versionNumbers (bindingText b "version")) ∧
      resolveImplementor query capabilityName minVersion = .ok (resolutionOf capabilityName b)
  anyOrder : ∀ query query' bindings', query (implementorQuery capabilityName) = .ok bindings →
    query' (implementorQuery capabilityName) = .ok bindings' → bindings.Perm bindings' →
    ∀ best, resolveImplementor query capabilityName minVersion = .ok best →
      ∃ best', resolveImplementor query' capabilityName minVersion = .ok best' ∧
        versionNumbers best'.implementorVersion = versionNumbers best.implementorVersion

/-- The comparisons of versions agree, and are a total preorder. -/
structure ComparesVersions : Prop where
  satisfies_iff : ∀ a b, versionSatisfies a b = true ↔ versionCmp a b ≠ .lt
  self : ∀ a, versionCmp a a = .eq
  swap : ∀ a b, versionCmp b a = (versionCmp a b).swap
  trans : ∀ a b c, versionCmp a b ≠ .gt → versionCmp b c ≠ .gt → versionCmp a c ≠ .gt

theorem comparesVersions : ComparesVersions where
  satisfies_iff := versionSatisfies_iff
  self := versionCmp_self
  swap := versionCmp_swap
  trans a b c hab hbc := by
    rw [versionCmp_ne_gt] at hab hbc ⊢
    exact hab.trans hbc

section Resolve

variable {capabilityName minVersion : String} {bindings : List Json}
  {query : String → Except PiCloudError (List Json)}

/-- Resolving fails without a version that is high enough, and otherwise picks a highest one. -/
theorem resolveImplementor_cases (hmin : IsVersion minVersion)
    (hrows : ∀ b ∈ bindings, IsVersion (bindingText b "version"))
    (hquery : query (implementorQuery capabilityName) = .ok bindings) :
    (resolveImplementor query capabilityName minVersion =
        .error (.capabilityUnfulfilled capabilityName minVersion) ∧
      ∀ b ∈ bindings, ¬ versionNumbers minVersion ≤ versionNumbers (bindingText b "version")) ∨
    ∃ b ∈ bindings, versionNumbers minVersion ≤ versionNumbers (bindingText b "version") ∧
      (∀ b' ∈ bindings,
        versionNumbers (bindingText b' "version") ≤ versionNumbers (bindingText b "version")) ∧
      resolveImplementor query capabilityName minVersion = .ok (resolutionOf capabilityName b) := by
  have hsatisfies : ∀ b ∈ bindings, (versionSatisfies (bindingText b "version") minVersion = true ↔
      versionNumbers minVersion ≤ versionNumbers (bindingText b "version")) := fun b hb => by
    rw [versionSatisfies_iff_le, readVersion_eq hmin, readVersion_eq (hrows b hb)]
  have hbetter : ∀ (b : Json) (s : CapabilityResolution), isBetter b s = true ↔
      readVersion s.implementorVersion < readVersion (bindingText b "version") := fun b s => by
    rw [isBetter, decide_eq_true_iff, versionCmp_eq_gt]
  have hmake : ∀ b, readVersion (resolutionOf capabilityName b).implementorVersion =
      readVersion (bindingText b "version") := fun _ => rfl
  rw [resolveImplementor, hquery]
  dsimp only
  rcases selectBest_spec (fun b => versionSatisfies (bindingText b "version") minVersion)
    (fun s : CapabilityResolution => readVersion s.implementorVersion) hmake hbetter bindings with ⟨hnone, hlow⟩ | ⟨b, hb, hallowed, hsome, hall⟩
  · rw [hnone]
    refine Or.inl ⟨rfl, fun b hb hle => ?_⟩
    have hlow := hlow b hb
    rw [(hsatisfies b hb).mpr hle] at hlow
    cases hlow
  · rw [hsome]
    have hmeets := (hsatisfies b hb).mp hallowed
    refine Or.inr ⟨b, hb, hmeets, fun b' hb' => ?_, rfl⟩
    rcases le_total (versionNumbers minVersion) (versionNumbers (bindingText b' "version")) with h | h
    · have hle := hall b' hb' ((hsatisfies b' hb').mpr h)
      rwa [readVersion_eq (hrows b hb), readVersion_eq (hrows b' hb')] at hle
    · exact h.trans hmeets

end Resolve

/-- **A highest version that satisfies is picked.** On dotted versions with numbers below 2^64, the
two comparisons agree and are a total preorder; resolving fails exactly when no row has a version that
is high enough, otherwise it returns a row of the highest version, and in whatever order the rows come
this is an equal version. -/
theorem resolveImplementor_picksHighest {capabilityName minVersion : String} {bindings : List Json}
    (hmin : IsVersion minVersion) (hrows : ∀ b ∈ bindings, IsVersion (bindingText b "version")) :
    ComparesVersions ∧ PicksHighest capabilityName minVersion bindings := by
  refine ⟨comparesVersions, ⟨fun query hquery => ?_, fun query hquery hexists => ?_,
    fun query query' bindings' hquery hquery' hperm best hbest => ?_⟩⟩
  · rcases resolveImplementor_cases hmin hrows hquery with ⟨hfail, hlow⟩ | ⟨b, hb, hmeets, -, hok⟩
    · exact iff_of_true hfail hlow
    · refine iff_of_false ?_ fun hlow => hlow b hb hmeets
      rw [hok]
      exact fun h => nomatch h
  · rcases resolveImplementor_cases hmin hrows hquery with ⟨-, hlow⟩ | hpicked
    · obtain ⟨b, hb, hmeets⟩ := hexists
      exact absurd hmeets (hlow b hb)
    · exact hpicked
  · have hrows' : ∀ b ∈ bindings', IsVersion (bindingText b "version") :=
      fun b hb => hrows b (hperm.mem_iff.mpr hb)
    rcases resolveImplementor_cases hmin hrows hquery with ⟨hfail, -⟩ | ⟨b, hb, hmeets, hall, hok⟩
    · rw [hfail] at hbest
      cases hbest
    · rw [hok] at hbest
      cases hbest
      rcases resolveImplementor_cases hmin hrows' hquery' with ⟨-, hlow⟩ | ⟨b', hb', -, hall', hok'⟩
      · exact absurd hmeets (hlow b (hperm.mem_iff.mp hb))
      · exact ⟨_, hok', le_antisymm (hall b' (hperm.mem_iff.mpr hb')) (hall' b (hperm.mem_iff.mp hb))⟩

/-! ## Some implementors -/

/-- A row of the query, for a product of the cluster. -/
def implementorRow (version product : String) : Json :=
  .object [("version", .object [("type", .string "literal"), ("value", .string version)]),
    ("product", .object [("type", .string "uri"),
      ("value", .string ("https://picloud.local/products/" ++ product))])]

/-- Of three implementors the highest one is picked. -/
theorem resolveImplementor_storage :
    ComparesVersions ∧ PicksHighest "storage" "1.5"
      [implementorRow "1.0.0" "disk", implementorRow "2.10" "cloud", implementorRow "2.9.1" "tape"] := by
  refine resolveImplementor_picksHighest ?_ ?_
  · unfold IsVersion
    decide +kernel
  · unfold IsVersion
    decide +kernel

/-- Two ways to write one version: the one that comes first is returned. And a version whose number
does not fit in 64 bits is none. -/
theorem not_picksHighest_written :
    resolveImplementor (fun _ => .ok [implementorRow "1.0.0" "disk", implementorRow "1" "cloud"])
      "storage" "1" = .ok ⟨"storage", "disk", "1.0.0"⟩ ∧
    resolveImplementor (fun _ => .ok [implementorRow "1" "cloud", implementorRow "1.0.0" "disk"])
      "storage" "1" = .ok ⟨"storage", "cloud", "1"⟩ ∧
    versionNumbers "1" ≤ versionNumbers "18446744073709551616" ∧
    resolveImplementor (fun _ => .ok [implementorRow "18446744073709551616" "disk"]) "storage" "1" =
      .error (.capabilityUnfulfilled "storage" "1") := by
  refine ⟨by decide +kernel, by decide +kernel, le_of_lt ?_, by decide +kernel⟩
  refine (compareAt_getD_eq_lt 0 _ _).mp ?_
  decide +kernel

end Picloud
