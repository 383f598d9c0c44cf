import Picloud.Lib.Parsers
import Mathlib.Data.List.Nodup
import Mathlib.Data.List.Count
import Mathlib.Data.List.Infix
import Mathlib.Data.List.TakeWhile

/-!
# The `.picloud` surface syntax

The syntax tree of a `.picloud` file and its parser: a scanner with a line number, without escapes in
strings, that merges the repeated blocks of a key and passes over a repeated assignment. The parser
goes forward only, and every round of its loops consumes an identifier, so that the fuel of the model does
not matter (`parse_fuel`).
-/

namespace Picloud

open Lib ParserOf

/-! ## Syntax trees -/

/-- `Property`: the assignment of a value. -/
structure Property (V : Type) where
  key : String
  value : V
  line : ℕ
deriving DecidableEq

/-- `PropertyValue`, over the floating point numbers `F`. -/
inductive PropertyValue (F : Type) where
  | string (text : String)
  | number (n : F)
  | bool (b : Bool)
  | secret (name : String)
  | block (props : List (Property (PropertyValue F)))
  | blocks (blocks : List (List (Property (PropertyValue F))))

/-- The properties of a resource or a block. -/
abbrev Properties (F : Type) := List (Property (PropertyValue F))

/-- `ResourceDecl`. -/
structure ResourceDecl (F : Type) where
  resourceType : String
  name : String
  properties : Properties F
  line : ℕ

/-- `ParsedFile`. -/
structure ParsedFile (F : Type) where
  path : String
  resources : List (ResourceDecl F)

/-! ## The scanner -/

/-- What the parser takes from the standard library: `str::parse::<f64>` and how a `char` is printed for
debugging. -/
structure SurfaceEnv (F : Type) where
  parseFloat : String → Option F
  debugChar : Char → String

/-- `Parser`: the remaining source and the line. -/
structure ParserState where
  rest : List Char
  line : ℕ
deriving DecidableEq

/-- A parser of the surface syntax; the errors are the reasons of `ResourceValidationFailed`. -/
abbrev SurfaceParser := ParserOf ParserState String

mutual

/-- The loop of `skip_ws`. -/
def skipWsFrom : List Char → ℕ → ParserState
  | [], line => ⟨[], line⟩
  | c :: cs, line =>
    if c = '\n' then skipWsFrom cs (line + 1)
    else if c = ' ' ∨ c = '\t' ∨ c = '\r' then skipWsFrom cs line
    else if c = '/' ∧ cs.head? = some '/' then skipCommentFrom cs line
    else ⟨c :: cs, line⟩

/-- The loop over a comment, and on behind the end of its line. -/
def skipCommentFrom : List Char → ℕ → ParserState
  | [], line => ⟨[], line⟩
  | c :: cs, line => if c = '\n' then skipWsFrom cs (line + 1) else skipCommentFrom cs line

end

/-- `skip_ws`. -/
def skipWs : SurfaceParser Unit := fun s => .ok ((), skipWsFrom s.rest s.line)

/-- `peek`. -/
def peek : SurfaceParser (Option Char) := fun s => .ok (s.rest.head?, s)

/-- `self.line`. -/
def currentLine : SurfaceParser ℕ := fun s => .ok (s.line, s)

/-- `remaining`. -/
def remaining : SurfaceParser (List Char) := fun s => .ok (s.rest, s)

/-- `advance`, its result unread. -/
def advance : SurfaceParser Unit := fun s =>
  match s.rest with
  | [] => .ok ((), s)
  | c :: cs => .ok ((), ⟨cs, if c = '\n' then s.line + 1 else s.line⟩)

/-- Go on by some characters that are no ends of lines. -/
def skipChars (k : ℕ) : SurfaceParser Unit := fun s => .ok ((), ⟨s.rest.drop k, s.line⟩)

/-- An error at the current line. -/
def failHere {α : Type} (message : String) : SurfaceParser α := do
  let line ← currentLine
  throw ("line " ++ toString line ++ ": " ++ message)

/-- `expect_char`. -/
def expectChar (expected : Char) : SurfaceParser Unit := do
  skipWs
  match ← peek with
  | some c =>
    if c = expected then advance
    else failHere ("expected '" ++ expected.toString ++ "', found '" ++ c.toString ++ "'")
  | none => failHere ("expected '" ++ expected.toString ++ "', found end of file")

/-- A character of an identifier behind the first one. -/
def isIdentChar (c : Char) : Bool := c.isAlphanum || c = '-' || c = '_'

/-- The loop of `parse_ident`. -/
def scanIdent : SurfaceParser String := fun s =>
  .ok (String.ofList (s.rest.takeWhile isIdentChar), ⟨s.rest.dropWhile isIdentChar, s.line⟩)

/-- `parse_ident`. -/
def parseIdent : SurfaceParser String := do
  skipWs
  let first ← peek
  if (first.map Char.isAlpha).getD false then scanIdent
  else failHere "expected identifier"

/-- The loop of `parse_string` over the characters up to the next quote, which it consumes. -/
def scanString : SurfaceParser String := fun s =>
  let text := s.rest.takeWhile (· ≠ '"')
  match s.rest.dropWhile (· ≠ '"') with
  | _ :: cs => .ok (String.ofList text, ⟨cs, s.line + text.count '\n'⟩)
  | [] => .error ("line " ++ toString (s.line + text.count '\n') ++ ": unterminated string")

/-- `parse_string`. -/
def parseString : SurfaceParser String := do
  skipWs
  expectChar '"'
  scanString

variable {F : Type} (env : SurfaceEnv F)

/-- The characters of a number at the front. -/
def numberText (cs : List Char) : List Char :=
  let sign := if cs.head? = some '-' then ['-'] else []
  let digits := (cs.drop sign.length).takeWhile Char.isDigit
  let behind := cs.drop (sign ++ digits).length
  if behind.head? = some '.' then sign ++ digits ++ '.' :: (behind.drop 1).takeWhile Char.isDigit
  else sign ++ digits

/-- `parse_number`. -/
def parseNumber : SurfaceParser (PropertyValue F) := do
  let text := numberText (← remaining)
  skipChars text.length
  match env.parseFloat (String.ofList text) with
  | some n => return .number n
  | none => failHere ("invalid number '" ++ String.ofList text ++ "'")

/-- The word stands at the front, and no letter or digit behind it. -/
def isWord (word cs : List Char) : Bool :=
  word <+: cs ∧ ((cs.drop word.length).head?.map Char.isAlphanum).getD false = false

/-- `parse_bool`. -/
def parseBool : SurfaceParser (PropertyValue F) := do
  let rest ← remaining
  if isWord "true".toList rest then
    skipChars 4
    return .bool true
  else if isWord "false".toList rest then
    skipChars 5
    return .bool false
  else failHere "expected 'true' or 'false'"

/-- `parse_secret`. -/
def parseSecret : SurfaceParser (PropertyValue F) := do
  skipChars 7
  skipWs
  let name ← parseString
  skipWs
  expectChar ')'
  return .secret name

/-- The braces of `parse_block_value`, around the properties. -/
def parseBlock (properties : SurfaceParser (Properties F)) : SurfaceParser (Properties F) := do
  expectChar '\x7b'
  let props ← properties
  expectChar '\x7d'
  return props

/-- `parse_value`, for a parser of the properties of a block. -/
def parseValue (properties : SurfaceParser (Properties F)) : SurfaceParser (PropertyValue F) := do
  skipWs
  let rest ← remaining
  match rest.head? with
  | some c =>
    if c = '"' then return .string (← parseString)
    else if c.isDigit ∨ c = '-' then parseNumber env
    else if c = 't' ∨ c = 'f' then parseBool
    else if c = 's' ∧ "secret(".toList <+: rest then parseSecret
    else if c = '\x7b' then return .block (← parseBlock properties)
    else failHere ("unexpected character '" ++ c.toString ++ "'")
  | none => failHere "unexpected end of file"

/-! ## Properties -/

/-- Replace the value of the first property with the key. -/
def setFirst (key : String) (value : PropertyValue F) : Properties F → Properties F
  | [] => []
  | p :: ps => if p.key = key then { p with value := value } :: ps else p :: setFirst key value ps

/-- Take up an assignment; a key that has a value keeps it, except that blocks grow. -/
def assign (props : Properties F) (key : String) (value : PropertyValue F) (line : ℕ) : Properties F :=
  match props.find? (·.key = key) with
  | some existing =>
    match existing.value, value with
    | .blocks blocks, .block new => setFirst key (.blocks (blocks ++ [new])) props
    | _, _ => props
  | none => props ++ [⟨key, value, line⟩]

/-- Take up a block, beside those that the key has. -/
def addBlock (props : Properties F) (key : String) (block : Properties F) (line : ℕ) :
    Except String (Properties F) :=
  match props.find? (·.key = key) with
  | some existing =>
    match existing.value with
    | .blocks blocks => .ok (setFirst key (.blocks (blocks ++ [block])) props)
    | .block first => .ok (setFirst key (.blocks [first, block]) props)
    | _ => .error ("line " ++ toString line ++ ": duplicate key '" ++ key ++ "' with conflicting types")
  | none => .ok (props ++ [⟨key, .block block, line⟩])

/-- A `;` may stand behind a value. -/
def skipSemicolon : SurfaceParser Unit := do
  skipWs
  if (← peek) = some ';' then advance

/-- `parse_properties`: the properties behind those that have been read. -/
def parseProperties : ℕ → Properties F → SurfaceParser (Properties F)
  | 0, _ => throw "out of fuel"
  | fuel + 1, props => do
    skipWs
    let next ← peek
    if next = some '\x7d' ∨ next = none then return props
    else
      let line ← currentLine
      let key ← parseIdent
      skipWs
      let sign ← peek
      if sign = some '=' then
        advance
        let value ← parseValue env (parseProperties fuel [])
        skipSemicolon
        parseProperties fuel (assign props key value line)
      else if sign = some '\x7b' then
        let block ← parseBlock (parseProperties fuel [])
        match addBlock props key block line with
        | .ok props => parseProperties fuel props
        | .error e => throw e
      else
        failHere ("expected '=' or '\x7b' after property name '" ++ key ++ "', found " ++
          (sign.map fun c => "Some(" ++ env.debugChar c ++ ")").getD "None")

/-- The properties up to the end of the block, with more fuel than there is input. -/
def properties : SurfaceParser (Properties F) := fun s =>
  parseProperties env (s.rest.length + 1) [] s

/-- `parse_resource`. -/
def parseResource : SurfaceParser (ResourceDecl F) := do
  let line ← currentLine
  let resourceType ← parseIdent
  let name ← parseString
  expectChar '\x7b'
  let props ← properties env
  expectChar '\x7d'
  return ⟨resourceType, name, props, line⟩

/-- The loop of `parse_file`. -/
def parseResources : ℕ → SurfaceParser (List (ResourceDecl F))
  | 0 => throw "out of fuel"
  | fuel + 1 => do
    skipWs
    if (← peek) = none then return []
    else
      let resource ← parseResource env
      return resource :: (← parseResources fuel)

/-- `parse`. -/
def parse (source path : String) : Except String (ParsedFile F) :=
  (parseResources env (source.toList.length + 1) ⟨source.toList, 1⟩).map fun r => ⟨path, r.1⟩

/-- The numbers of the samples are integers. -/
def sampleSurface : SurfaceEnv ℤ := ⟨String.toInt?, fun c => "'" ++ c.toString ++ "'"⟩

/-! ## Progress -/

/-- The size of a state. -/
abbrev ParserState.size (s : ParserState) : ℕ := s.rest.length

mutual

theorem length_skipWsFrom (cs : List Char) (line : ℕ) :
    (skipWsFrom cs line).rest.length ≤ cs.length := by
  match cs with
  | [] => simp [skipWsFrom]
  | c :: cs =>
    have hws := fun line => length_skipWsFrom cs line
    have hcomment := length_skipCommentFrom cs line
    rw [skipWsFrom]
    split_ifs
    · exact (hws _).trans (Nat.le_succ _)
    · exact (hws _).trans (Nat.le_succ _)
    · exact hcomment.trans (Nat.le_succ _)
    · exact le_rfl

theorem length_skipCommentFrom (cs : List Char) (line : ℕ) :
    (skipCommentFrom cs line).rest.length ≤ cs.length := by
  match cs with
  | [] => simp [skipCommentFrom]
  | c :: cs =>
    rw [skipCommentFrom]
    split_ifs
    · exact (length_skipWsFrom cs _).trans (Nat.le_succ _)
    · exact (length_skipCommentFrom cs _).trans (Nat.le_succ _)

end

/-- The parser does not go back. -/
abbrev Forward {α : Type} (p : SurfaceParser α) : Prop := Consumes ParserState.size 0 p

theorem forward_skipWs : Forward skipWs := by
  rintro s a s' h
  cases h
  exact length_skipWsFrom s.rest s.line

theorem forward_peek : Forward peek := by
  rintro s a s' h
  cases h
  exact le_rfl

theorem forward_currentLine : Forward currentLine := by
  rintro s a s' h
  cases h
  exact le_rfl

theorem forward_remaining : Forward remaining := by
  rintro s a s' h
  cases h
  exact le_rfl

theorem forward_skipChars (k : ℕ) : Forward (skipChars k) := by
  rintro s a s' h
  cases h
  simp [ParserState.size]

theorem forward_advance : Forward advance := by
  rintro ⟨rest, line⟩ a s' h
  cases rest with
  | nil =>
    cases h
    exact le_rfl
  | cons c cs =>
    cases h
    simp [ParserState.size]

theorem failHere_apply {α : Type} (message : String) (s : ParserState) :
    (failHere message : SurfaceParser α) s = .error ("line " ++ toString s.line ++ ": " ++ message) := rfl

theorem forward_failHere {α : Type} (message : String) : Forward (failHere (α := α) message) :=
  forward_currentLine.seq fun _ => consumes_throw _

variable {s s' : ParserState}

/-- `expect_char` succeeds at the expected character only. -/
theorem expectChar_eq_ok {expected : Char} {u : Unit} :
    expectChar expected s = .ok (u, s') ↔ ∃ cs line, skipWsFrom s.rest s.line = ⟨expected :: cs, line⟩ ∧
      s' = ⟨cs, if expected = '\n' then line + 1 else line⟩ := by
  simp only [expectChar, bind_apply, skipWs, peek, Except.bind]
  generalize skipWsFrom s.rest s.line = s₁
  obtain ⟨rest, line⟩ := s₁
  cases rest with
  | nil => simp [failHere_apply]
  | cons c cs =>
    by_cases hc : c = expected
    · simp [hc, advance, eq_comm]
    · simp [hc, failHere_apply]

theorem expectChar_consumes (expected : Char) : Consumes ParserState.size 1 (expectChar expected) := by
  intro s u s' h
  obtain ⟨cs, line, hws, rfl⟩ := expectChar_eq_ok.mp h
  have hsize := length_skipWsFrom s.rest s.line
  rw [hws] at hsize
  exact hsize

/-- `parse_ident` reads a letter and what belongs to the identifier behind it. -/
theorem parseIdent_eq_ok {key : String} :
    parseIdent s = .ok (key, s') ↔ ∃ c cs line, skipWsFrom s.rest s.line = ⟨c :: cs, line⟩ ∧
      c.isAlpha = true ∧ key = String.ofList ((c :: cs).takeWhile isIdentChar) ∧
      s' = ⟨(c :: cs).dropWhile isIdentChar, line⟩ := by
  simp only [parseIdent, bind_apply, skipWs, peek, Except.bind]
  generalize skipWsFrom s.rest s.line = s₁
  obtain ⟨rest, line⟩ := s₁
  cases rest with
  | nil => simp [failHere_apply]
  | cons c cs =>
    by_cases hc : c.isAlpha
    · simp only [hc, List.head?_cons, Option.map_some, Option.getD_some, if_true, scanIdent]
      constructor
      · rintro h
        cases h
        exact ⟨c, cs, line, rfl, hc, rfl, rfl⟩
      · rintro ⟨c', cs', line', heq, -, rfl, rfl⟩
        cases heq
        rfl
    · simp [hc, failHere_apply]

theorem isIdentChar_of_isAlpha {c : Char} (h : c.isAlpha = true) : isIdentChar c = true := by
  simp [isIdentChar, Char.isAlphanum, h]

theorem parseIdent_consumes : Consumes ParserState.size 1 parseIdent := by
  intro s key s' h
  obtain ⟨c, cs, line, hws, hc, -, rfl⟩ := parseIdent_eq_ok.mp h
  have hsize := length_skipWsFrom s.rest s.line
  have hdrop := (List.dropWhile_suffix (p := isIdentChar) (l := cs)).length_le
  rw [hws] at hsize
  rw [ParserState.size, List.dropWhile_cons_of_pos (isIdentChar_of_isAlpha hc)]
  exact (Nat.succ_le_succ hdrop).trans hsize

/-- The loop of `parse_string` reads up to the first quote. -/
theorem scanString_eq_ok {text : String} :
    scanString s = .ok (text, s') ↔ ∃ cs, s.rest = text.toList ++ '"' :: cs ∧ '"' ∉ text.toList ∧
      s' = ⟨cs, s.line + text.toList.count '\n'⟩ := by
  constructor
  · intro h
    have hsplit := List.takeWhile_append_dropWhile (p := (· ≠ '"')) (l := s.rest)
    have hnot : '"' ∉ s.rest.takeWhile (· ≠ '"') := fun hmem => by simpa using List.mem_takeWhile_imp hmem
    rw [scanString] at h
    cases hdrop : s.rest.dropWhile (· ≠ '"') with
    | nil =>
      rw [hdrop] at h
      cases h
    | cons c cs =>
      have hc : c = '"' := by
        have hhead := List.head?_dropWhile_not (· ≠ '"') s.rest
        rw [hdrop] at hhead
        simpa using hhead
      rw [hdrop] at h hsplit
      cases h
      subst hc
      exact ⟨cs, by rw [String.toList_ofList, hsplit], by rwa [String.toList_ofList], by
        rw [String.toList_ofList]⟩
  · rintro ⟨cs, hrest, hnot, rfl⟩
    have hall : ∀ c ∈ text.toList, (c ≠ '"' : Bool) = true := fun c hc =>
      decide_eq_true fun heq => hnot (heq ▸ hc)
    rw [scanString, hrest, List.takeWhile_append_of_pos hall, List.dropWhile_append_of_pos hall]
    simp

theorem forward_parseString : Forward parseString := by
  refine forward_skipWs.seq fun _ => ((expectChar_consumes '"').mono (Nat.zero_le 1)).seq fun _ => ?_
  intro s text s' h
  obtain ⟨cs, hrest, -, rfl⟩ := scanString_eq_ok.mp h
  simp only [ParserState.size, hrest, List.length_append, List.length_cons]
  omega

theorem forward_expectChar (expected : Char) : Forward (expectChar expected) :=
  (expectChar_consumes expected).mono (Nat.zero_le 1)

theorem forward_parseNumber : Forward (parseNumber env) := by
  refine forward_remaining.seq fun rest => (forward_skipChars _).seq fun _ => ?_
  split
  · exact consumes_pure _
  · exact forward_failHere _

theorem forward_parseBool : Forward (parseBool (F := F)) := by
  refine forward_remaining.seq fun rest => ?_
  split_ifs
  · exact (forward_skipChars 4).seq fun _ => consumes_pure _
  · exact (forward_skipChars 5).seq fun _ => consumes_pure _
  · exact forward_failHere _

theorem forward_parseSecret : Forward (parseSecret (F := F)) :=
  (forward_skipChars 7).seq fun _ => forward_skipWs.seq fun _ => forward_parseString.seq fun _ =>
    forward_skipWs.seq fun _ => (forward_expectChar ')').seq fun _ => consumes_pure _

section Recursion

variable {env} {p q : SurfaceParser (Properties F)}

theorem forward_parseBlock (hp : Forward p) : Forward (parseBlock p) :=
  (forward_expectChar _).seq fun _ => hp.seq fun _ => (forward_expectChar _).seq fun _ => consumes_pure _

theorem forward_parseValue (hp : Forward p) : Forward (parseValue env p) := by
  refine forward_skipWs.seq fun _ => forward_remaining.seq fun rest => ?_
  split
  · split_ifs
    · exact forward_parseString.seq fun _ => consumes_pure _
    · exact forward_parseNumber env
    · exact forward_parseBool
    · exact forward_parseSecret
    · exact (forward_parseBlock hp).seq fun _ => consumes_pure _
    · exact forward_failHere _
  · exact forward_failHere _

theorem forward_skipSemicolon : Forward skipSemicolon := by
  refine forward_skipWs.seq fun _ => forward_peek.seq fun next => ?_
  split_ifs
  · exact forward_advance
  · exact consumes_pure _

theorem forward_parseProperties (fuel : ℕ) (props : Properties F) :
    Forward (parseProperties env fuel props) := by
  induction fuel generalizing props with
  | zero => exact consumes_throw _
  | succ fuel ih =>
    refine forward_skipWs.seq fun _ => forward_peek.seq fun next => ?_
    split_ifs
    · exact consumes_pure _
    · refine forward_currentLine.seq fun line => (parseIdent_consumes.mono (Nat.zero_le 1)).seq fun key =>
        forward_skipWs.seq fun _ => forward_peek.seq fun sign => ?_
      split_ifs
      · exact forward_advance.seq fun _ => (forward_parseValue (ih [])).seq fun value =>
          forward_skipSemicolon.seq fun _ => ih _
      · refine (forward_parseBlock (ih [])).seq fun block => ?_
        split
        · exact ih _
        · exact consumes_throw _
      · exact forward_failHere _

/-! ## Fuel -/

variable {n : ℕ}

theorem agree_parseBlock (h : AgreeBelow ParserState.size n p q) (hp : Forward p) :
    AgreeBelow ParserState.size n (parseBlock p) (parseBlock q) :=
  AgreeBelow.after (forward_expectChar _) fun _ => h.bind hp fun _ => agreeBelow_refl _

theorem agree_parseValue (h : AgreeBelow ParserState.size n p q) (hp : Forward p) :
    AgreeBelow ParserState.size n (parseValue env p) (parseValue env q) := by
  refine AgreeBelow.after forward_skipWs fun _ => AgreeBelow.after forward_remaining fun rest => ?_
  split
  · split_ifs
    · exact agreeBelow_refl _
    · exact agreeBelow_refl _
    · exact agreeBelow_refl _
    · exact agreeBelow_refl _
    · exact (agree_parseBlock h hp).bind (forward_parseBlock hp) fun _ => agreeBelow_refl _
    · exact agreeBelow_refl _
  · exact agreeBelow_refl _

variable {fuel : ℕ}

/-- Fuel does not matter as long as there is more of it than input: each round of the loop and each
nested block consumes an identifier. -/
theorem agree_parseProperties {fuel' : ℕ} (props : Properties F) (hn : n ≤ fuel) (hn' : n ≤ fuel') :
    AgreeBelow ParserState.size n (parseProperties env fuel props) (parseProperties env fuel' props) := by
  induction fuel generalizing fuel' n props with
  | zero => exact fun s hs => absurd hs (by omega)
  | succ fuel ih =>
    cases fuel' with
    | zero => exact fun s hs => absurd hs (by omega)
    | succ fuel' =>
      have hrest : ∀ props : Properties F, AgreeBelow ParserState.size (n - 1)
          (parseProperties env fuel props) (parseProperties env fuel' props) :=
        fun props => ih props (by omega) (by omega)
      have hforward : Forward (parseProperties env fuel []) := forward_parseProperties fuel []
      refine AgreeBelow.after forward_skipWs fun _ => AgreeBelow.after forward_peek fun next => ?_
      split_ifs
      · exact agreeBelow_refl _
      · refine AgreeBelow.after forward_currentLine fun line =>
          (agreeBelow_refl _).bind parseIdent_consumes fun key =>
            AgreeBelow.after forward_skipWs fun _ => AgreeBelow.after forward_peek fun sign => ?_
        split_ifs
        · exact AgreeBelow.after forward_advance fun _ =>
            (agree_parseValue (hrest []) hforward).bind (forward_parseValue hforward)
              fun value => AgreeBelow.after forward_skipSemicolon fun _ => hrest _
        · refine (agree_parseBlock (hrest []) hforward).bind (forward_parseBlock hforward)
            fun block => ?_
          split
          · exact hrest _
          · exact agreeBelow_refl _
        · exact agreeBelow_refl _

/-- **Any fuel above the length of the input gives the same properties.** -/
theorem properties_fuel {s : ParserState} (hfuel : s.rest.length < fuel) :
    properties env s = parseProperties env fuel [] s :=
  agree_parseProperties [] (n := s.rest.length + 1) le_rfl hfuel s (Nat.lt_succ_self _)

theorem forward_properties : Forward (properties env) := fun s a s' h =>
  forward_parseProperties _ _ s a s' h

theorem parseResource_consumes : Consumes ParserState.size 1 (parseResource env) := by
  intro s resource s' h
  obtain ⟨line, s₁, hline, h⟩ := exists_of_bind_ok h
  have hforward := forward_currentLine s line s₁ hline
  obtain ⟨resourceType, s₂, htype, h⟩ := exists_of_bind_ok h
  have hident := parseIdent_consumes s₁ resourceType s₂ htype
  have hrest : Forward (do
      let name ← parseString
      expectChar '\x7b'
      let props ← properties env
      expectChar '\x7d'
      return (⟨resourceType, name, props, line⟩ : ResourceDecl F)) :=
    forward_parseString.seq fun _ => (forward_expectChar _).seq fun _ => forward_properties.seq fun _ =>
      (forward_expectChar _).seq fun _ => consumes_pure _
  have hsize := hrest s₂ resource s' h
  omega

theorem forward_parseResources (fuel : ℕ) : Forward (parseResources env fuel) := by
  induction fuel with
  | zero => exact consumes_throw _
  | succ fuel ih =>
    refine forward_skipWs.seq fun _ => forward_peek.seq fun next => ?_
    split_ifs
    · exact consumes_pure _
    · exact (parseResource_consumes.mono (Nat.zero_le 1)).seq fun _ => ih.seq fun _ => consumes_pure _

theorem agree_parseResources {fuel' : ℕ} (hn : n ≤ fuel) (hn' : n ≤ fuel') :
    AgreeBelow ParserState.size n (parseResources env fuel) (parseResources env fuel') := by
  induction fuel generalizing fuel' n with
  | zero => exact fun s hs => absurd hs (by omega)
  | succ fuel ih =>
    cases fuel' with
    | zero => exact fun s hs => absurd hs (by omega)
    | succ fuel' =>
      refine AgreeBelow.after forward_skipWs fun _ => AgreeBelow.after forward_peek fun next => ?_
      split_ifs
      · exact agreeBelow_refl _
      · refine (agreeBelow_refl _).bind parseResource_consumes fun resource => ?_
        exact (ih (by omega) (by omega)).bind (k := 0) (forward_parseResources fuel)
          fun _ => agreeBelow_refl _

/-- **Any fuel above the length of the source gives the same file.** -/
theorem parse_fuel (source path : String) (hfuel : source.toList.length < fuel) :
    parse env source path =
      (parseResources env fuel ⟨source.toList, 1⟩).map fun r => ⟨path, r.1⟩ := by
  rw [parse, agree_parseResources (n := source.toList.length + 1) le_rfl hfuel _ (Nat.lt_succ_self _)]

end Recursion

end Picloud
