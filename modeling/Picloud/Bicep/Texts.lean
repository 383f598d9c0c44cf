import Picloud.Lib.Binary64
import Picloud.Lib.ByteScanner

/-!
# Bicep texts

Reference: `picloud-domain/src/parser.rs`, from `split_bicep_declarations` to `parse_bicep_value`, on the
characters that are left. The values are kept as they are written: a token is not yet a number, a truth
value or a text (`BicepText.value` says what the code makes of it). Where the code slices inside a
character, or its loop over the elements of an array stands still at a `}`, the reading ends there.
-/

namespace Picloud.Bicep

open Lib ParserOf CharParser

/-! ## Values as they are written -/

/-- A value of a text. -/
inductive BicepText where
  | quoted (text : String)
  | bare (token : String)
  | array (items : List BicepText)
  | object (pairs : List (String × BicepText))

/-- The pairs of a block. -/
abbrev TextPairs := List (String × BicepText)

/-- Why a text is not read to its end. -/
inductive Trouble where
  | panic
  | strayBrace
  | reason (text : String)
deriving DecidableEq

/-- How the code ends then. -/
def Trouble.failure : Trouble → Failure
  | .panic => .panic
  | .strayBrace => .timeout
  | .reason text => .reason text

/-- A reader of Bicep texts. -/
abbrev TextParser := CharParser Trouble

/-! ## White space, comments, quotes and braces -/

/-- `is_ascii_whitespace`. -/
def isAsciiWhitespace (c : Char) : Bool := c = ' ' || c = '\t' || c = '\n' || c = '\x0c' || c = '\r'

/-- The test for a comment slices two bytes, if there are two. -/
def startsComment : TextParser Bool := fun rest =>
  if 2 ≤ byteCount rest then
    match sliceTo rest 2 with
    | some text => .ok (text = "//".toList, rest)
    | none => .error .panic
  else .ok (false, rest)

mutual

/-- The loop of `skip_ws_and_comments`. -/
def skipWsFrom : List Char → Except Trouble (List Char)
  | [] => .ok []
  | c :: cs =>
    if isAsciiWhitespace c then skipWsFrom cs
    else
      match startsComment (c :: cs) with
      | .ok (true, _) => skipLineFrom cs
      | .ok (false, rest) => .ok rest
      | .error e => .error e

/-- The loop over a comment, and on behind the end of its line. -/
def skipLineFrom : List Char → Except Trouble (List Char)
  | [] => .ok []
  | c :: cs => if c = '\n' then skipWsFrom cs else skipLineFrom cs

end

/-- `skip_ws_and_comments`. -/
def skipWsAndComments : TextParser Unit := fun rest => (skipWsFrom rest).map fun rest => ((), rest)

/-- `skip_ws_inline`. -/
def skipWsInline : TextParser Unit := skip fun c => c = ' ' || c = '\t'

/-- The two quotation marks. -/
def isQuote (c : Char) : Bool := c = '\'' || c = '"'

/-- `read_quoted_string`, where the source is what the position counts from. -/
def readQuotedString (source : List Char) : TextParser String := do
  match ← front with
  | some q =>
    if isQuote q then
      next
      let text ← taken (· ≠ q)
      match ← front with
      | some _ =>
        next
        return String.ofList text
      | none => throw (.reason "unterminated string")
    else expected
  | none => expected
where
  /-- There is no quotation mark. -/
  expected : TextParser String := fun rest =>
    .error (.reason ("expected quoted string at position " ++
      toString (byteCount source - byteCount rest)))

mutual

/-- The loop of `read_braced_block`, up to the brace that closes the block. -/
def blockBody : ℕ → List Char → Option (List Char × List Char)
  | _, [] => none
  | depth, c :: cs =>
    if c = '\x7b' then (blockBody (depth + 1) cs).map fun r => (c :: r.1, r.2)
    else if c = '\x7d' then
      if depth = 1 then some ([], cs) else (blockBody (depth - 1) cs).map fun r => (c :: r.1, r.2)
    else if isQuote c then (quotedBody c depth cs).map fun r => (c :: r.1, r.2)
    else (blockBody depth cs).map fun r => (c :: r.1, r.2)

/-- The loop over a quoted string in a block. -/
def quotedBody (q : Char) : ℕ → List Char → Option (List Char × List Char)
  | _, [] => none
  | depth, c :: cs =>
    if c = q then (blockBody depth cs).map fun r => (c :: r.1, r.2)
    else (quotedBody q depth cs).map fun r => (c :: r.1, r.2)

end

/-- `read_braced_block`. -/
def readBracedBlock : TextParser (List Char) := fun rest =>
  match rest with
  | c :: cs =>
    if c = '\x7b' then
      match blockBody 1 cs with
      | some r => .ok r
      | none => .error (.reason "unterminated block — missing '\x7d'")
    else .error (.reason "expected '\x7b'")
  | [] => .error .panic

/-! ## Values -/

/-- A byte of a token. -/
def isTokenChar (c : Char) : Bool := !isAsciiWhitespace c && c ≠ ',' && c ≠ ']' && c ≠ '\x7d'

/-- A byte of a bare key. -/
def isKeyChar (c : Char) : Bool := c ≠ ':' && !isAsciiWhitespace c

/-- A key, quoted or bare. -/
def parseKey (body : List Char) : TextParser String := do
  let first ← front
  if (first.map isQuote).getD false then readQuotedString body
  else
    let key ← taken isKeyChar
    return trim (String.ofList key)

/-- The loop of `parse_bicep_kv`, for a reader of the values. -/
def parseKvLoop (body : List Char) (value : TextParser BicepText) : ℕ → TextParser TextPairs
  | 0 => throw (.reason "out of fuel")
  | n + 1 => do
    skipWsAndComments
    match ← front with
    | none => return []
    | some c =>
      if c = ',' then
        next
        parseKvLoop body value n
      else
        let key ← parseKey body
        if key = "" then return []
        else
          skip (· ≠ ':')
          match ← front with
          | none => return []
          | some _ =>
            next
            skipWsInline
            let v ← value
            let pairs ← parseKvLoop body value n
            return (key, v) :: pairs

/-- The loop over the elements of an array, for a reader of the values. -/
def parseItems (value : TextParser BicepText) : ℕ → TextParser (List BicepText)
  | 0 => throw (.reason "out of fuel")
  | n + 1 => do
    skipWsAndComments
    match ← front with
    | none => throw (.reason "unterminated array")
    | some c =>
      if c = ']' then
        next
        return []
      else if c = ',' then
        next
        parseItems value n
      else if c = '\x7d' then throw .strayBrace
      else
        let v ← value
        let items ← parseItems value n
        return v :: items

/-- Read another text from its beginning to its end. -/
def within {α : Type} (q : TextParser α) (text : List Char) : TextParser α := fun rest =>
  (q text).map fun r => (r.1, rest)

/-- `parse_bicep_value`. -/
def parseBicepValue : ℕ → List Char → TextParser BicepText
  | 0, _ => throw (.reason "out of fuel")
  | n + 1, source => do
    skipWsAndComments
    match ← front with
    | none => throw (.reason "unexpected end of input while parsing value")
    | some c =>
      if isQuote c then return .quoted (← readQuotedString source)
      else if c = '[' then
        next
        return .array (← parseItems (parseBicepValue n source) n)
      else if c = '\x7b' then
        let block ← readBracedBlock
        return .object (← within (parseKvLoop block (parseBicepValue n block) n) block)
      else
        let token ← taken isTokenChar
        return .bare (trim (String.ofList token))

/-- `parse_bicep_kv`, with more fuel than there is text. -/
def parseBicepKv (body : List Char) : Except Trouble TextPairs :=
  (parseKvLoop body (parseBicepValue (body.length + 1) body) (body.length + 1) body).map Prod.fst

/-- `BicepValue`. -/
inductive BicepValue where
  | str (text : String)
  | num (n : Binary64)
  | bool (b : Bool)
  | array (items : List BicepValue)
  | object (pairs : List (String × BicepValue))

/-- The pairs of a block. -/
abbrev Pairs := List (String × BicepValue)

/-- What a token is taken for. -/
def tokenValue (token : String) : BicepValue :=
  if token = "true" then .bool true
  else if token = "false" then .bool false
  else
    match Binary64.parse token with
    | some n => .num n
    | none => .str token

mutual

/-- What a written value is taken for. -/
def BicepText.value : BicepText → BicepValue
  | .quoted text => .str text
  | .bare token => tokenValue token
  | .array items => .array (itemValues items)
  | .object pairs => .object (pairValues pairs)

def itemValues : List BicepText → List BicepValue
  | [] => []
  | v :: vs => v.value :: itemValues vs

def pairValues : List (String × BicepText) → List (String × BicepValue)
  | [] => []
  | (key, v) :: pairs => (key, v.value) :: pairValues pairs

end

/-! ## Progress -/

section Progress

variable {rest rest' : List Char} {source : List Char} {n : ℕ}

/-- The test for a comment reads ahead only. -/
theorem startsComment_state {b : Bool} (h : startsComment rest = .ok (b, rest')) : rest' = rest := by
  rw [startsComment] at h
  split_ifs at h
  · cases hslice : sliceTo rest 2 with
    | some text =>
      rw [hslice] at h
      cases h
      rfl
    | none =>
      rw [hslice] at h
      cases h
  · cases h
    rfl

theorem skipWsFrom_dropWhile (cs : List Char) :
    skipWsFrom cs = skipWsFrom (cs.dropWhile isAsciiWhitespace) := by
  induction cs with
  | nil => rfl
  | cons c cs ih =>
    by_cases hc : isAsciiWhitespace c
    · rw [List.dropWhile_cons_of_pos hc, skipWsFrom, if_pos hc, ih]
    · rw [List.dropWhile_cons_of_neg hc]

theorem skipLineFrom_eq (cs : List Char) : skipLineFrom cs = skipWsFrom (cs.dropWhile (· ≠ '\n')) := by
  induction cs with
  | nil => rw [skipLineFrom, List.dropWhile_nil, skipWsFrom]
  | cons c cs ih =>
    rw [skipLineFrom]
    by_cases hc : c = '\n'
    · rw [if_pos hc, List.dropWhile_cons_of_neg (by simpa using hc), skipWsFrom, if_pos (by rw [hc]; rfl)]
    · rw [if_neg hc, List.dropWhile_cons_of_pos (by simpa using hc), ih]

/-- Behind white space and comments there is a rest of the text, without any at its beginning. -/
theorem skipWsFrom_ok (h : skipWsFrom rest = .ok rest') :
    rest' <:+ rest ∧ skipWsFrom rest' = .ok rest' := by
  induction hlength : rest.length using Nat.strong_induction_on generalizing rest with
  | _ k ih =>
    subst hlength
    cases rest with
    | nil =>
      rw [skipWsFrom] at h
      cases h
      exact ⟨List.suffix_refl _, by rw [skipWsFrom]⟩
    | cons c cs =>
      have hcs := h
      rw [skipWsFrom] at h
      split_ifs at h with hc
      · obtain ⟨hsuffix, hfixed⟩ := ih cs.length (Nat.lt_succ_self _) h rfl
        exact ⟨hsuffix.trans (List.suffix_cons c cs), hfixed⟩
      · generalize hstarts : startsComment (c :: cs) = r at h
        match r, h with
        | .ok (true, _), h =>
          rw [skipLineFrom_eq] at h
          have hdrop := List.dropWhile_suffix (· ≠ '\n') (l := cs)
          obtain ⟨hsuffix, hfixed⟩ := ih _ (Nat.lt_succ_of_le hdrop.length_le) h rfl
          exact ⟨(hsuffix.trans hdrop).trans (List.suffix_cons c cs), hfixed⟩
        | .ok (false, rest''), h =>
          cases h
          obtain rfl := startsComment_state hstarts
          exact ⟨List.suffix_refl _, hcs⟩

/-- What stands behind white space and comments is none of them. -/
theorem not_isAsciiWhitespace_of_skipWsFrom {c : Char} {cs : List Char}
    (h : skipWsFrom (c :: cs) = .ok (c :: cs)) : isAsciiWhitespace c = false := by
  by_contra hc
  rw [skipWsFrom, if_pos (by simpa using hc)] at h
  have hlength := (skipWsFrom_ok h).1.length_le
  rw [List.length_cons] at hlength
  omega

theorem skipWsAndComments_ok {a : Unit} (h : skipWsAndComments rest = .ok (a, rest')) :
    skipWsFrom rest = .ok rest' := by
  rw [skipWsAndComments] at h
  cases hskip : skipWsFrom rest with
  | error e =>
    rw [hskip] at h
    cases h
  | ok rest'' =>
    rw [hskip] at h
    cases h
    rfl

theorem forward_skipWsAndComments : CharParser.Forward skipWsAndComments := fun _ _ _ h =>
  (skipWsFrom_ok (skipWsAndComments_ok h)).1.length_le

/-- A quoted string has two quotation marks. -/
theorem readQuotedString_ok {text : String} (h : readQuotedString source rest = .ok (text, rest')) :
    ∃ q cs, isQuote q = true ∧ rest = q :: cs ∧ text = String.ofList (cs.takeWhile (· ≠ q)) ∧
      cs.dropWhile (· ≠ q) = q :: rest' := by
  obtain ⟨first, start, hfirst, h⟩ := exists_of_bind_ok h
  cases hfirst
  cases rest with
  | nil => cases h
  | cons q cs =>
    dsimp only [List.head?_cons] at h
    split_ifs at h with hquote
    · obtain ⟨_, _, hnext, h⟩ := exists_of_bind_ok h
      cases hnext
      obtain ⟨_, _, htaken, h⟩ := exists_of_bind_ok h
      cases htaken
      obtain ⟨last, _, hlast, h⟩ := exists_of_bind_ok h
      cases hlast
      have hhead := List.head?_dropWhile_not (· ≠ q) cs
      cases hdrop : cs.dropWhile (· ≠ q) with
      | nil =>
        rw [List.tail_cons, hdrop] at h
        cases h
      | cons x behind =>
        rw [hdrop] at hhead
        obtain rfl : x = q := by simpa using hhead
        rw [List.tail_cons, hdrop] at h
        cases h
        exact ⟨x, cs, hquote, rfl, rfl, hdrop⟩
    · cases h

theorem consumes_readQuotedString (source : List Char) :
    Consumes List.length 2 (readQuotedString source) := by
  intro rest text rest' h
  obtain ⟨q, cs, -, rfl, -, hdrop⟩ := readQuotedString_ok h
  have hlength := (List.dropWhile_suffix (· ≠ q) (l := cs)).length_le
  rw [hdrop, List.length_cons] at hlength
  rw [List.length_cons]
  omega

theorem forward_readQuotedString (source : List Char) : CharParser.Forward (readQuotedString source) :=
  (consumes_readQuotedString source).mono (Nat.zero_le 2)

theorem forward_parseKey (body : List Char) : CharParser.Forward (parseKey body) := by
  refine forward_front.seq fun first => ?_
  split_ifs
  · exact forward_readQuotedString body
  · exact (forward_taken _).seq fun _ => consumes_pure _

end Progress

/-! ## Declarations -/

/-- A declaration of a text: its type, its name and its body. -/
structure TextDecl where
  resourceType : String
  name : String
  body : List Char
deriving DecidableEq

/-- A declaration, up to the brace that closes its body. -/
def readDeclaration (input : List Char) : TextParser TextDecl := do
  let resourceType ← taken fun c => !isAsciiWhitespace c
  skip fun c => isAsciiWhitespace c && c ≠ '\n'
  let name ← readQuotedString input
  skip fun c => isAsciiWhitespace c || c = '='
  if (← front) = some '\x7b' then
    let body ← readBracedBlock
    return ⟨String.ofList resourceType, name, body⟩
  else throw (.reason ("expected '\x7b' after " ++ String.ofList resourceType ++ " '" ++ name ++ "'"))

/-- The loop of `split_bicep_declarations`. -/
def splitLoop (input : List Char) : ℕ → TextParser (List TextDecl)
  | 0 => throw (.reason "out of fuel")
  | n + 1 => do
    skip isAsciiWhitespace
    match ← front with
    | none => return []
    | some _ =>
      if ← startsComment then
        skip (· ≠ '\n')
        splitLoop input n
      else
        let decl ← readDeclaration input
        let decls ← splitLoop input n
        return decl :: decls

/-- `split_bicep_declarations`, with more fuel than there is text. -/
def splitBicepDeclarations (input : List Char) : Except Trouble (List TextDecl) :=
  (splitLoop input (input.length + 1) input).map Prod.fst

end Picloud.Bicep
