import Picloud.Bicep.Declarations

/-!
# When the Bicep parser returns

`readBicep` reads a text on its characters and always ends. The code does what it does, except at two
places: the test for a comment slices two bytes and panics where these end inside a character, and the
loop over the elements of an array stands still at a closing brace. `terminates_iff` and `returns_iff` say
that these are the only ones, for every text.
-/

namespace Picloud.Bicep

open Lib

variable (env : BicepEnv)

/-- A declaration of a text, with its body read on its characters. -/
def readDecl (decl : TextDecl) : Except Trouble ResourceDeclaration := do
  let kv ← parseBicepKv decl.body
  (declarationOf env.display decl.name (pairValues kv) decl.resourceType).mapError Trouble.reason

/-- Read a text on its characters. -/
def readBicep (input : List Char) : Except Trouble (List ResourceDeclaration) := do
  let decls ← splitBicepDeclarations input
  decls.mapM (readDecl env)

/-- From some fuel on the parser ends, always in the same way. -/
def Terminates (input : List Char) : Prop :=
  ∃ fuel result, result ≠ .error .timeout ∧ ∀ more, parseBicep env (fuel + more) input = result

/-- From some fuel on the parser of a file returns, with declarations or with an error. -/
def Returns (input : String) : Prop :=
  ∃ fuel, ∃ result : Except String (List ResourceDeclaration),
    ∀ more, parseFile env (fuel + more) input = result.mapError Failure.reason

/-- The text is in the JSON form. -/
def IsJson (input : String) : Prop := (trimChars input.toList).head? = some '\x7b'

/-! ## Bytes and characters -/

variable {env}

theorem mapError_bind {ε ε' α β : Type} (wrap : ε → ε') (r : Except ε α) (f : α → Except ε β) :
    (r >>= f).mapError wrap = r.mapError wrap >>= fun a => (f a).mapError wrap := by
  cases r <;> rfl

theorem mapM_mapError {ε ε' α β : Type} {wrap : ε → ε'} {f : α → Except ε β} {g : α → Except ε' β}
    {items : List α} (h : ∀ a ∈ items, g a = (f a).mapError wrap) :
    items.mapM g = (items.mapM f).mapError wrap := by
  induction items with
  | nil => rfl
  | cons a items ih =>
    rw [List.mapM_cons, List.mapM_cons, h a List.mem_cons_self,
      ih fun b hb => h b (List.mem_cons_of_mem a hb), mapError_bind]
    simp only [mapError_bind]
    rfl

theorem parseBicepDeclaration_eq {fuel : ℕ} {decl : TextDecl} (hfuel : byteCount decl.body < fuel) :
    parseBicepDeclaration env fuel decl = (readDecl env decl).mapError Trouble.failure := by
  rw [parseBicepDeclaration, readDecl, Bytes.parseBicepKv_eq hfuel]
  cases parseBicepKv decl.body with
  | error e => rfl
  | ok kv =>
    change (declarationOf env.display decl.name (pairValues kv) decl.resourceType).mapError Failure.reason =
      ((declarationOf env.display decl.name (pairValues kv) decl.resourceType).mapError
        Trouble.reason).mapError Trouble.failure
    generalize declarationOf env.display decl.name (pairValues kv) decl.resourceType = result
    cases result <;> rfl

/-- **The parser ends as the reader does**, with fuel for each byte. -/
theorem parseBicep_eq {fuel : ℕ} {input : List Char} (hfuel : byteCount input < fuel) :
    parseBicep env fuel input = (readBicep env input).mapError Trouble.failure := by
  rw [parseBicep, readBicep, Bytes.splitBicepDeclarations_eq hfuel, mapError_bind]
  cases hsplit : splitBicepDeclarations input with
  | error e => rfl
  | ok decls =>
    refine mapM_mapError fun decl hdecl => parseBicepDeclaration_eq ?_
    refine (Bytes.byteCount_body_of_split hsplit decl hdecl).trans_lt hfuel

theorem mapError_eq_timeout {α : Type} {r : Except Trouble α} :
    r.mapError Trouble.failure = .error .timeout ↔ r = .error .strayBrace := by
  cases r with
  | error e => cases e <;> simp [Except.mapError, Trouble.failure]
  | ok a => simp [Except.mapError]

/-! ## Termination -/

/-- **The parser terminates exactly on the texts without a closing brace where the element of an array
begins.** -/
theorem terminates_iff (env : BicepEnv) (input : List Char) :
    Terminates env input ↔ readBicep env input ≠ .error .strayBrace := by
  rw [Ne, ← mapError_eq_timeout]
  constructor
  · rintro ⟨fuel, result, hresult, hall⟩ hstray
    have hrun := hall (byteCount input + 1)
    rw [parseBicep_eq (by omega), hstray] at hrun
    exact hresult hrun.symm
  · intro hstray
    exact ⟨byteCount input + 1, _, hstray, fun more => parseBicep_eq (by omega)⟩

/-- An environment for texts without numbers that are displayed, and without JSON. -/
def sampleBicep : BicepEnv := ⟨fun _ => "", fun text => .error text⟩

/-- A token in front of a block ends at the brace that closes the block. -/
theorem not_terminates_tokenBlock :
    ¬ Terminates sampleBicep "volume 'v' \x7b x: [a\x7b\x7d] \x7d".toList := by
  have hread : readBicep sampleBicep "volume 'v' \x7b x: [a\x7b\x7d] \x7d".toList =
      .error .strayBrace := by decide +kernel
  rintro ⟨fuel, result, hresult, hall⟩
  have hrun := hall (byteCount "volume 'v' \x7b x: [a\x7b\x7d] \x7d".toList + 1)
  rw [parseBicep_eq (by omega), hread] at hrun
  exact hresult hrun.symm

/-! ## Results -/

theorem mapError_failure_iff {r : Except Trouble (List ResourceDeclaration)} :
    (∃ result : Except String (List ResourceDeclaration),
      r.mapError Trouble.failure = result.mapError Failure.reason) ↔
      r ≠ .error .panic ∧ r ≠ .error .strayBrace := by
  cases r with
  | ok decls => exact ⟨fun _ => ⟨nofun, nofun⟩, fun _ => ⟨.ok decls, rfl⟩⟩
  | error e =>
    cases e with
    | reason text => exact ⟨fun _ => ⟨nofun, nofun⟩, fun _ => ⟨.error text, rfl⟩⟩
    | panic =>
      refine ⟨?_, fun h => absurd rfl h.1⟩
      rintro ⟨result, hresult⟩
      cases result <;> cases hresult
    | strayBrace =>
      refine ⟨?_, fun h => absurd rfl h.2⟩
      rintro ⟨result, hresult⟩
      cases result <;> cases hresult

theorem parseFile_of_not_isJson {input : String} (fuel : ℕ) (hjson : ¬ IsJson input) :
    parseFile env fuel input = parseBicep env fuel (trimChars input.toList) := by
  rw [parseFile]
  exact if_neg hjson

/-- **The parser of a file returns exactly on the JSON form and on the texts it can read**: where it tests
for a comment the second byte ends a character, and no element of an array begins at a closing brace. -/
theorem returns_iff (env : BicepEnv) (input : String) :
    Returns env input ↔ IsJson input ∨
      (readBicep env (trimChars input.toList) ≠ .error .panic ∧
        readBicep env (trimChars input.toList) ≠ .error .strayBrace) := by
  rw [← mapError_failure_iff]
  by_cases hjson : IsJson input
  · refine ⟨fun _ => .inl hjson, fun _ => ⟨0, env.parseJson (String.ofList (trimChars input.toList)), ?_⟩⟩
    intro more
    rw [parseFile]
    exact if_pos hjson
  · have hparse : ∀ fuel, parseFile env fuel input = parseBicep env fuel (trimChars input.toList) :=
      fun fuel => parseFile_of_not_isJson fuel hjson
    constructor
    · rintro ⟨fuel, result, hall⟩
      have hrun := hall (byteCount (trimChars input.toList) + 1)
      rw [hparse, parseBicep_eq (by omega)] at hrun
      exact .inr ⟨result, hrun⟩
    · rintro (h | ⟨result, hresult⟩)
      · exact absurd h hjson
      · refine ⟨byteCount (trimChars input.toList) + 1, result, fun more => ?_⟩
        rw [hparse, parseBicep_eq (by omega), hresult]

/-- The test for a comment behind the colon ends inside the second character. -/
theorem not_returns_accent : ¬ Returns sampleBicep "volume 'v' \x7b x: aé \x7d" := by
  have htrim : trimChars "volume 'v' \x7b x: aé \x7d".toList = "volume 'v' \x7b x: aé \x7d".toList := by
    decide +kernel
  have hjson : ¬ IsJson "volume 'v' \x7b x: aé \x7d" := by
    rw [IsJson, htrim]
    decide +kernel
  have hread : readBicep sampleBicep "volume 'v' \x7b x: aé \x7d".toList = .error .panic := by
    decide +kernel
  rintro ⟨fuel, result, hall⟩
  have hrun := hall (byteCount "volume 'v' \x7b x: aé \x7d".toList + 1)
  rw [parseFile_of_not_isJson _ hjson, htrim, parseBicep_eq (by omega), hread] at hrun
  cases result <;> cases hrun

end Picloud.Bicep
