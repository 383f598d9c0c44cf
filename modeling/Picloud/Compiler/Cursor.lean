import Picloud.Compiler.Parser
import Picloud.Lib.Utf8Cursor

/-!
# The parser on the bytes of a source

The parser of the surface syntax as the code runs it: the cursor is a position in the bytes of the source,
most loops go on byte by byte, and the source is sliced at the cursor. A slice that is not at boundaries
of characters is a panic, a loop that uses up its fuel has not ended. With more fuel than bytes there is
neither: the parser does what it does on characters (`parse_eq_mapError`).
-/

namespace Picloud

open Lib ParserOf

/-- `Parser`: the position in the source and the line. -/
structure Cursor where
  pos : ℕ
  line : ℕ

/-- A parser of the surface syntax on bytes. -/
abbrev CursorParser := ParserOf Cursor Failure

namespace Cursor

/-! ## The scanner -/

variable (source : List Char) (fuel : ℕ)

/-- `self.pos`. -/
def position : CursorParser ℕ := fun s => .ok (s.pos, s)

/-- `self.line`. -/
def currentLine : CursorParser ℕ := fun s => .ok (s.line, s)

/-- `bytes[self.pos]`, as a character; nothing at the end of the source. -/
def byte : CursorParser (Option Char) := fun s => .ok (byteAt source s.pos, s)

/-- `self.pos += k`. -/
def move (k : ℕ) : CursorParser Unit := fun s => .ok ((), { s with pos := s.pos + k })

/-- `self.line += 1`. -/
def nextLine : CursorParser Unit := fun s => .ok ((), { s with line := s.line + 1 })

/-- `remaining`: the source from the cursor on. -/
def remaining : CursorParser (List Char) := fun s =>
  match Lib.sliceFrom source s.pos with
  | some rest => .ok (rest, s)
  | none => .error .panic

/-- `source[start..self.pos]`. -/
def sliceBehind (start : ℕ) : CursorParser (List Char) := fun s =>
  match slice source start s.pos with
  | some text => .ok (text, s)
  | none => .error .panic

/-- A loop that goes on by one byte as long as the bytes meet a condition. -/
def scan (p : Char → Bool) : CursorParser Unit := fun s =>
  match scanPos source p fuel s.pos with
  | some pos => .ok ((), { s with pos := pos })
  | none => .error .timeout

/-- The loop of `skip_ws`. -/
def skipWsLoop : ℕ → CursorParser Unit
  | 0 => throw .timeout
  | n + 1 => do
    match ← byte source with
    | none => return ()
    | some b =>
      if b = '\n' then
        move 1
        nextLine
        skipWsLoop n
      else if b = ' ' ∨ b = '\t' ∨ b = '\r' then
        move 1
        skipWsLoop n
      else
        let rest ← remaining source
        if "//".toList <+: rest then
          scan source fuel (· ≠ '\n')
          skipWsLoop n
        else return ()

/-- `skip_ws`. -/
def skipWs : CursorParser Unit := skipWsLoop source fuel fuel

/-- `peek`. -/
def peek : CursorParser (Option Char) := do
  let rest ← remaining source
  return rest.head?

/-- `advance`, its result unread. -/
def advance : CursorParser Unit := do
  match ← peek source with
  | none => return ()
  | some c =>
    move c.utf8Size
    if c = '\n' then nextLine

/-- An error at the current line. -/
def failHere {α : Type} (message : String) : CursorParser α := do
  let line ← currentLine
  throw (.reason ("line " ++ toString line ++ ": " ++ message))

/-- `expect_char`. -/
def expectChar (expected : Char) : CursorParser Unit := do
  skipWs source fuel
  match ← peek source with
  | some c =>
    if c = expected then advance source
    else failHere ("expected '" ++ expected.toString ++ "', found '" ++ c.toString ++ "'")
  | none => failHere ("expected '" ++ expected.toString ++ "', found end of file")

/-- `parse_ident`. -/
def parseIdent : CursorParser String := do
  skipWs source fuel
  let start ← position
  let first ← byte source
  if (first.map Char.isAlpha).getD false then
    scan source fuel isIdentChar
    return String.ofList (← sliceBehind source start)
  else failHere "expected identifier"

/-- The loop of `parse_string`. -/
def scanString (start : ℕ) : ℕ → CursorParser String
  | 0 => throw .timeout
  | n + 1 => do
    match ← byte source with
    | some b =>
      if b = '"' then
        let text ← sliceBehind source start
        move 1
        return String.ofList text
      else
        if b = '\n' then nextLine
        move 1
        scanString start n
    | none => failHere "unterminated string"

/-- `parse_string`. -/
def parseString : CursorParser String := do
  skipWs source fuel
  expectChar source fuel '"'
  let start ← position
  scanString source start fuel

/-! ## Values -/

variable {F : Type} (env : SurfaceEnv F)

/-- Go on over the sign of a number, if there is one. -/
def scanSign : CursorParser Unit := do
  if (← byte source) = some '-' then move 1

/-- Go on over the fraction of a number, if there is one. -/
def scanFraction : CursorParser Unit := do
  if (← byte source) = some '.' then
    move 1
    scan source fuel Char.isDigit

/-- `parse_number`. -/
def parseNumber : CursorParser (PropertyValue F) := do
  let start ← position
  scanSign source
  scan source fuel Char.isDigit
  scanFraction source fuel
  let text ← sliceBehind source start
  match env.parseFloat (String.ofList text) with
  | some n => return .number n
  | none => failHere ("invalid number '" ++ String.ofList text ++ "'")

/-- `source.as_bytes().get(self.pos + k)` is no letter or digit. -/
def endsBehind (k : ℕ) : CursorParser Bool := fun s =>
  .ok (!((byteAt source (s.pos + k)).map Char.isAlphanum).getD false, s)

/-- `parse_bool`. -/
def parseBool : CursorParser (PropertyValue F) := do
  let rest ← remaining source
  let endsTrue ← endsBehind source 4
  let endsFalse ← endsBehind source 5
  if "true".toList <+: rest ∧ endsTrue then
    move 4
    return .bool true
  else if "false".toList <+: rest ∧ endsFalse then
    move 5
    return .bool false
  else failHere "expected 'true' or 'false'"

/-- `parse_secret`. -/
def parseSecret : CursorParser (PropertyValue F) := do
  move 7
  skipWs source fuel
  let name ← parseString source fuel
  skipWs source fuel
  expectChar source fuel ')'
  return .secret name

/-- `parse_block_value`, for a parser of the properties of a block. -/
def parseBlockValue (properties : CursorParser (Properties F)) : CursorParser (PropertyValue F) := do
  expectChar source fuel '\x7b'
  let props ← properties
  expectChar source fuel '\x7d'
  return .block props

/-- `parse_value`, for a parser of the properties of a block. -/
def parseValue (properties : CursorParser (Properties F)) : CursorParser (PropertyValue F) := do
  skipWs source fuel
  let rest ← remaining source
  match rest.head? with
  | some c =>
    if c = '"' then return .string (← parseString source fuel)
    else if c.isDigit ∨ c = '-' then parseNumber source fuel env
    else if c = 't' ∨ c = 'f' then parseBool source
    else if c = 's' ∧ "secret(".toList <+: rest then parseSecret source fuel
    else if c = '\x7b' then parseBlockValue source fuel properties
    else failHere ("unexpected character '" ++ c.toString ++ "'")
  | none => failHere "unexpected end of file"

/-! ## Properties -/

/-- A `;` may stand behind a value. -/
def skipSemicolon : CursorParser Unit := do
  skipWs source fuel
  if (← peek source) = some ';' then advance source

/-- `parse_properties`: the properties behind those that have been read. -/
def parseProperties : ℕ → Properties F → CursorParser (Properties F)
  | 0, _ => throw .timeout
  | n + 1, props => do
    skipWs source fuel
    let next ← peek source
    if next = some '\x7d' ∨ next = none then return props
    else
      let line ← currentLine
      let key ← parseIdent source fuel
      skipWs source fuel
      let sign ← peek source
      if sign = some '=' then
        advance source
        let value ← parseValue source fuel env (parseProperties n [])
        skipSemicolon source fuel
        parseProperties n (assign props key value line)
      else if sign = some '\x7b' then
        match ← parseBlockValue source fuel (parseProperties n []) with
        | .block block =>
          match addBlock props key block line with
          | .ok props => parseProperties n props
          | .error e => throw (.reason e)
        | _ => throw .panic
      else
        failHere ("expected '=' or '\x7b' after property name '" ++ key ++ "', found " ++
          (sign.map fun c => "Some(" ++ env.debugChar c ++ ")").getD "None")

/-- `parse_resource`. -/
def parseResource : CursorParser (ResourceDecl F) := do
  let line ← currentLine
  let resourceType ← parseIdent source fuel
  let name ← parseString source fuel
  expectChar source fuel '\x7b'
  let props ← parseProperties source fuel env fuel []
  expectChar source fuel '\x7d'
  return ⟨resourceType, name, props, line⟩

/-- The loop of `parse_file`. -/
def parseResources : ℕ → CursorParser (List (ResourceDecl F))
  | 0 => throw .timeout
  | n + 1 => do
    skipWs source fuel
    if (← peek source) = none then return []
    else
      let resource ← parseResource source fuel env
      return resource :: (← parseResources n)

/-- `parse`, where each loop and the nesting may use the fuel. -/
def parse (source path : String) : Except Failure (ParsedFile F) :=
  (parseResources source.toList fuel env fuel ⟨0, 1⟩).map fun r => ⟨path, r.1⟩

/-! ## The scanner on characters -/

/-- The cursor is at the boundary in front of what is left, in the same line. -/
structure At (source : List Char) (t : Cursor) (s : ParserState) : Prop where
  stands : Stands source t.pos s.rest
  line : t.line = s.line

/-- The runs agree: same results at the same place, same reasons. -/
abbrev AgreesAt {α : Type} (source : List Char) (r : Except Failure (α × Cursor))
    (r' : Except String (α × ParserState)) : Prop := Agrees (At source) Failure.reason r r'

/-- The parser on bytes does what the one on characters does, on less than so many characters. -/
abbrev Implements {α : Type} (source : List Char) (n : ℕ) (p : CursorParser α) (q : SurfaceParser α) : Prop :=
  ImplementsBelow (At source) Failure.reason ParserState.size n p q

section Scanner

variable {source fuel} {n : ℕ} {t : Cursor} {s : ParserState} {rest cs : List Char} {pos line : ℕ}
  {p : Char → Bool}

theorem scan_apply (hfuel : byteCount source < fuel) (hp : AsciiOnly p) (h : At source t s) :
    scan source fuel p t = .ok ((), ⟨t.pos + byteCount (s.rest.takeWhile p), t.line⟩) := by
  rw [scan, scanPos_eq hp h.stands hfuel]

theorem remaining_apply (h : At source t s) : remaining source t = .ok (s.rest, t) := by
  rw [remaining, sliceFrom_eq_some_iff.mpr h.stands]

theorem sliceBehind_apply {text : List Char} (h : Stands source pos (text ++ rest)) :
    sliceBehind source pos ⟨pos + byteCount text, line⟩ = .ok (text, ⟨pos + byteCount text, line⟩) := by
  rw [sliceBehind, slice_of_stands h]

theorem byte_of_nil (h : Stands source pos []) :
    byte source ⟨pos, line⟩ = .ok (none, ⟨pos, line⟩) := by
  rw [byte, byteAt_nil h]

theorem byte_of_cons {c : Char} (h : Stands source pos (c :: rest)) (hc : c.toNat < 128) :
    byte source ⟨pos, line⟩ = .ok (some c, ⟨pos, line⟩) := by
  rw [byte, byteAt_ascii h hc]

theorem length_lt_of_stands (hfuel : byteCount source < fuel) (h : Stands source pos rest) :
    rest.length < fuel :=
  (length_le_byteCount rest).trans_lt (by have := h.add_byteCount; omega)

theorem skipCommentFrom_eq (cs : List Char) (line : ℕ) :
    skipCommentFrom cs line = skipWsFrom (cs.dropWhile (· ≠ '\n')) line := by
  induction cs with
  | nil => rw [skipCommentFrom, List.dropWhile_nil, skipWsFrom]
  | cons c cs ih =>
    rw [skipCommentFrom]
    by_cases hc : c = '\n'
    · rw [if_pos hc, List.dropWhile_cons_of_neg (by simpa using hc), skipWsFrom, if_pos hc]
    · rw [if_neg hc, List.dropWhile_cons_of_pos (by simpa using hc), ih]

/-- A comment is skipped byte by byte, to the end of its line. -/
theorem agrees_skipWsLoop (hfuel : byteCount source < fuel) (h : Stands source pos rest)
    (hn : rest.length < n) :
    AgreesAt source (skipWsLoop source fuel n ⟨pos, line⟩) (.ok ((), Picloud.skipWsFrom rest line)) := by
  induction n generalizing pos rest line with
  | zero => omega
  | succ n ih =>
    cases rest with
    | nil =>
      rw [skipWsLoop, bind_of_ok (byte_of_nil h), skipWsFrom]
      exact .ok ⟨h, rfl⟩
    | cons c cs =>
      obtain ⟨d, hd, hsame⟩ := exists_byteAt h
      have hbyte : byte source ⟨pos, line⟩ = .ok (some d, ⟨pos, line⟩) := by rw [byte, hd]
      rw [List.length_cons] at hn
      rw [skipWsLoop, bind_of_ok hbyte, skipWsFrom]
      simp only [hsame '\n' (by decide), hsame ' ' (by decide), hsame '\t' (by decide),
        hsame '\r' (by decide)]
      split_ifs with hnewline hspace hslash
      · exact ih (h.next (by rw [hnewline]; decide)) (by omega)
      · have hc : c.toNat < 128 := by
          rcases hspace with rfl | rfl | rfl <;> decide
        exact ih (h.next hc) (by omega)
      · -- the two slashes are not the end of a line
        have hat : At source ⟨pos, line⟩ ⟨c :: cs, line⟩ := ⟨h, rfl⟩
        have hstart : "//".toList <+: c :: cs := by
          cases cs with
          | nil => cases hslash.2
          | cons c' cs =>
            cases hslash.2
            rw [hslash.1]
            exact ⟨cs, rfl⟩
        rw [bind_of_ok (remaining_apply hat), if_pos hstart,
          bind_of_ok (scan_apply hfuel (asciiOnly_ne (by decide)) hat), skipCommentFrom_eq]
        have hdrop : (c :: cs).dropWhile (· ≠ '\n') = cs.dropWhile (· ≠ '\n') :=
          List.dropWhile_cons_of_pos (by simpa using hnewline)
        have hstands := h.takeWhile (· ≠ '\n')
        rw [hdrop] at hstands
        have hlength := (List.dropWhile_suffix (p := (· ≠ '\n')) (l := cs)).length_le
        exact ih hstands (by omega)
      · have hat : At source ⟨pos, line⟩ ⟨c :: cs, line⟩ := ⟨h, rfl⟩
        have hstart : ¬ "//".toList <+: c :: cs := by
          rintro ⟨tail, htail⟩
          cases htail
          exact hslash ⟨rfl, rfl⟩
        rw [bind_of_ok (remaining_apply hat), if_neg hstart]
        exact .ok hat

theorem implements_skipWs (hfuel : byteCount source < fuel) :
    Implements source n (skipWs source fuel) Picloud.skipWs := by
  rintro ⟨pos, line⟩ s ⟨hstands, rfl⟩ -
  exact agrees_skipWsLoop hfuel hstands (length_lt_of_stands hfuel hstands)

theorem implements_peek : Implements source n (peek source) Picloud.peek := by
  intro t s hat _
  rw [peek, bind_of_ok (remaining_apply hat)]
  exact .ok hat

theorem implements_currentLine : Implements source n currentLine Picloud.currentLine := by
  intro t s hat _
  rw [currentLine, hat.line]
  exact .ok hat

theorem implements_failHere {α : Type} (message : String) :
    Implements source n (failHere (α := α) message) (Picloud.failHere message) :=
  implements_currentLine.seq forward_currentLine fun _ => implements_throw _

theorem implements_advance : Implements source n (advance source) Picloud.advance := by
  rintro ⟨pos, line⟩ ⟨rest, line'⟩ hat -
  have hpeek : peek source ⟨pos, line⟩ = .ok (rest.head?, ⟨pos, line⟩) := by
    rw [peek, bind_of_ok (remaining_apply hat)]
    rfl
  obtain ⟨hstands, hline⟩ := hat
  cases hline
  rw [advance, bind_of_ok hpeek]
  cases rest with
  | nil => exact .ok ⟨hstands, rfl⟩
  | cons c cs =>
    have hnext : Stands source (pos + byteCount [c]) cs := Stands.skip hstands
    rw [byteCount_cons, byteCount_nil, Nat.add_zero] at hnext
    by_cases hc : c = '\n'
    · simp only [Picloud.advance, List.head?_cons, if_pos hc]
      exact .ok ⟨hnext, rfl⟩
    · simp only [Picloud.advance, List.head?_cons, if_neg hc]
      exact .ok ⟨hnext, rfl⟩

theorem implements_expectChar (hfuel : byteCount source < fuel) (expected : Char) :
    Implements source n (expectChar source fuel expected) (Picloud.expectChar expected) := by
  refine (implements_skipWs hfuel).seq forward_skipWs fun _ =>
    implements_peek.seq forward_peek fun next => ?_
  cases next with
  | none => exact implements_failHere _
  | some c =>
    dsimp only
    split_ifs
    · exact implements_advance
    · exact implements_failHere _

theorem isAlphanum_of_le {c : Char} (hc : 128 ≤ c.toNat) : c.isAlphanum = false := by
  have hval : 128 ≤ c.val.toNat := hc
  delta Char.isAlphanum Char.isAlpha Char.isUpper Char.isLower Char.isDigit
  simp only [Bool.or_eq_false_iff, Bool.and_eq_false_iff, decide_eq_false_iff_not, UInt32.le_iff_toNat_le,
    Char.reduceVal, UInt32.reduceToNat]
  omega

theorem asciiOnly_isAlphanum : AsciiOnly Char.isAlphanum := asciiOnly_of_false fun _ => isAlphanum_of_le

theorem asciiOnly_isAlpha : AsciiOnly Char.isAlpha :=
  asciiOnly_of_false fun _ hc => (Bool.or_eq_false_iff.mp (isAlphanum_of_le hc)).1

theorem asciiOnly_isDigit : AsciiOnly Char.isDigit :=
  asciiOnly_of_false fun _ hc => (Bool.or_eq_false_iff.mp (isAlphanum_of_le hc)).2

theorem asciiOnly_isIdentChar : AsciiOnly isIdentChar :=
  (asciiOnly_isAlphanum.or (asciiOnly_eq (by decide))).or (asciiOnly_eq (by decide))

theorem implements_parseIdent (hfuel : byteCount source < fuel) :
    Implements source n (parseIdent source fuel) Picloud.parseIdent := by
  refine (implements_skipWs hfuel).seq forward_skipWs fun _ => ?_
  rintro ⟨pos, line⟩ ⟨rest, line'⟩ hat -
  have hfirst : (byteAt source pos).map Char.isAlpha = rest.head?.map Char.isAlpha :=
    map_byteAt asciiOnly_isAlpha hat.stands
  have hbyte : byte source ⟨pos, line⟩ = .ok (byteAt source pos, ⟨pos, line⟩) := rfl
  have hposition : position ⟨pos, line⟩ = .ok (pos, ⟨pos, line⟩) := rfl
  have hpeek : Picloud.peek ⟨rest, line'⟩ = .ok (rest.head?, ⟨rest, line'⟩) := rfl
  rw [bind_of_ok hposition, bind_of_ok hbyte, bind_of_ok hpeek, hfirst]
  split_ifs
  · have hsplit : Stands source pos (rest.takeWhile isIdentChar ++ rest.dropWhile isIdentChar) := by
      rw [List.takeWhile_append_dropWhile]
      exact hat.stands
    rw [bind_of_ok (scan_apply hfuel asciiOnly_isIdentChar hat), bind_of_ok (sliceBehind_apply hsplit)]
    exact .ok ⟨hsplit.skip, hat.line⟩
  · exact implements_failHere _ _ _ hat (Nat.lt_succ_self _)

/-- The loop of `parse_string` goes on to the next quote, and counts the newlines on its way. -/
theorem scanString_eq (start : ℕ) (hn : byteCount source - pos < n) :
    scanString source start n ⟨pos, line⟩ =
      let bytes := ((textBytes source).drop pos).takeWhile fun b => byteChar b ≠ '"'
      scanString source start 1 ⟨pos + bytes.length, line + bytes.countP fun b => byteChar b = '\n'⟩ := by
  induction n generalizing pos line with
  | zero => omega
  | succ n ih =>
    have hbyte : byteAt source pos = ((textBytes source).drop pos).head?.map byteChar := by
      rw [byteAt, List.head?_drop]
    cases hdrop : (textBytes source).drop pos with
    | nil =>
      rw [hdrop] at hbyte
      simp [scanString, bind_apply, byte, hbyte, Except.bind]
    | cons b bs =>
      have hlength := congrArg List.length hdrop
      have hbs : (textBytes source).drop (pos + 1) = bs := by
        rw [← List.drop_drop, hdrop]
        rfl
      rw [List.length_drop, List.length_cons] at hlength
      rw [hdrop] at hbyte
      have hread : byte source ⟨pos, line⟩ = .ok (some (byteChar b), ⟨pos, line⟩) := by
        rw [byte, hbyte]
        rfl
      by_cases hquote : byteChar b = '"'
      · rw [List.takeWhile_cons_of_neg (by simpa using hquote)]
        simp only [List.length_nil, List.countP_nil, Nat.add_zero]
        rw [scanString, scanString, bind_of_ok hread, bind_of_ok hread]
        simp only [hquote, if_true]
      · rw [List.takeWhile_cons_of_pos (by simpa using hquote)]
        have hstep : scanString source start (n + 1) ⟨pos, line⟩ = scanString source start n
            ⟨pos + 1, line + if byteChar b = '\n' then 1 else 0⟩ := by
          rw [scanString, bind_of_ok hread]
          simp only [hquote, if_false]
          by_cases hnewline : byteChar b = '\n'
          · simp only [hnewline, if_true]
            rfl
          · simp only [hnewline, if_false]
            rfl
        rw [hstep, ih (by rw [byteCount] at hn ⊢; omega), hbs]
        simp only [List.length_cons, List.countP_cons, decide_eq_true_eq]
        congr 2
        · omega
        · omega

/-- The loop of `parse_string` ends at a quote, or at the end of the source. -/
theorem agrees_scanString (hfuel : byteCount source < fuel) (h : At source t s) :
    AgreesAt source (scanString source t.pos fuel t) (Picloud.scanString s) := by
  obtain ⟨pos, line⟩ := t
  obtain ⟨rest, line'⟩ := s
  obtain ⟨hstands, hline⟩ := h
  cases hline
  dsimp only at hstands ⊢
  have hsplit : Stands source pos (rest.takeWhile (· ≠ '"') ++ rest.dropWhile (· ≠ '"')) := by
    rwa [List.takeWhile_append_dropWhile]
  rw [scanString_eq pos (by omega), drop_textBytes hstands, takeWhile_textBytes (asciiOnly_ne (by decide))]
  dsimp only
  rw [countP_textBytes (by decide), Picloud.scanString]
  dsimp only
  generalize rest.takeWhile (· ≠ '"') = text at hsplit ⊢
  change AgreesAt source (scanString source pos 1 ⟨pos + byteCount text, line + text.count '\n'⟩) _
  have hend := hsplit.skip
  cases hdrop : rest.dropWhile (· ≠ '"') with
  | nil =>
    rw [hdrop] at hend
    have hreason : "line " ++ toString (line + text.count '\n') ++ ": " ++ "unterminated string" =
        "line " ++ toString (line + text.count '\n') ++ ": unterminated string" := by
      rw [String.append_assoc]
      rfl
    rw [scanString, bind_of_ok (byte_of_nil hend)]
    rw [← hreason]
    exact .error _
  | cons c cs =>
    have hc : c = '"' := by
      have hhead := List.head?_dropWhile_not (· ≠ '"') rest
      rw [hdrop] at hhead
      simpa using hhead
    rw [hdrop, hc] at hsplit hend
    rw [scanString, bind_of_ok (byte_of_cons hend (by decide))]
    simp only [if_true]
    rw [bind_of_ok (sliceBehind_apply hsplit)]
    exact .ok ⟨hend.next (by decide), rfl⟩

theorem implements_parseString (hfuel : byteCount source < fuel) :
    Implements source n (parseString source fuel) Picloud.parseString := by
  refine (implements_skipWs hfuel).seq forward_skipWs fun _ =>
    (implements_expectChar hfuel _).seq (forward_expectChar _) fun _ => ?_
  intro t s hat _
  have hposition : position t = .ok (t.pos, t) := rfl
  rw [bind_of_ok hposition]
  exact agrees_scanString hfuel hat

/-! ## Values on characters -/

variable {F : Type} {env : SurfaceEnv F}

/-- The sign at the front of a text. -/
def signText (cs : List Char) : List Char := if cs.head? = some '-' then ['-'] else []

/-- The fraction at the front of a text. -/
def fractionText (cs : List Char) : List Char :=
  if cs.head? = some '.' then '.' :: (cs.drop 1).takeWhile Char.isDigit else []

theorem exists_signText (cs : List Char) : ∃ rest, cs = signText cs ++ rest := by
  rw [signText]
  split_ifs with hsign
  · obtain ⟨rest, rfl⟩ := List.head?_eq_some_iff.mp hsign
    exact ⟨rest, rfl⟩
  · exact ⟨cs, rfl⟩

theorem exists_fractionText (cs : List Char) : ∃ rest, cs = fractionText cs ++ rest := by
  rw [fractionText]
  split_ifs with hdot
  · obtain ⟨rest, rfl⟩ := List.head?_eq_some_iff.mp hdot
    refine ⟨rest.dropWhile Char.isDigit, ?_⟩
    rw [List.drop_one, List.tail_cons, List.cons_append, List.takeWhile_append_dropWhile]
  · exact ⟨cs, rfl⟩

/-- A number is its sign, its digits and its fraction. -/
theorem numberText_eq (hrest : rest = signText rest ++ cs) : numberText rest =
    signText rest ++ cs.takeWhile Char.isDigit ++ fractionText (cs.dropWhile Char.isDigit) := by
  have hdrop : (signText rest ++ cs).drop (signText rest).length = cs := List.drop_left
  have hbehind : (signText rest ++ cs).drop (signText rest ++ cs.takeWhile Char.isDigit).length =
      cs.dropWhile Char.isDigit := by
    rw [List.length_append, ← List.drop_drop, hdrop]
    have hsplit : (cs.takeWhile Char.isDigit ++ cs.dropWhile Char.isDigit).drop
        (cs.takeWhile Char.isDigit).length = cs.dropWhile Char.isDigit := List.drop_left
    rwa [List.takeWhile_append_dropWhile] at hsplit
  rw [← hrest] at hdrop hbehind
  rw [numberText, ← signText, hdrop, hbehind, fractionText]
  split_ifs
  · rfl
  · rw [List.append_nil]

theorem scanSign_apply (h : Stands source pos rest) :
    scanSign source ⟨pos, line⟩ = .ok ((), ⟨pos + byteCount (signText rest), line⟩) := by
  have hbyte : byte source ⟨pos, line⟩ = .ok (byteAt source pos, ⟨pos, line⟩) := rfl
  rw [scanSign, bind_of_ok hbyte, signText]
  simp only [byteAt_eq_some_iff h (show '-'.toNat < 128 by decide)]
  split_ifs
  · rfl
  · rfl

theorem scanFraction_apply (hfuel : byteCount source < fuel) (h : Stands source pos rest) :
    scanFraction source fuel ⟨pos, line⟩ = .ok ((), ⟨pos + byteCount (fractionText rest), line⟩) := by
  have hbyte : byte source ⟨pos, line⟩ = .ok (byteAt source pos, ⟨pos, line⟩) := rfl
  rw [scanFraction, bind_of_ok hbyte, fractionText]
  simp only [byteAt_eq_some_iff h (show '.'.toNat < 128 by decide)]
  split_ifs with hdot
  · obtain ⟨cs, rfl⟩ := List.head?_eq_some_iff.mp hdot
    have hmove : move 1 ⟨pos, line⟩ = .ok ((), ⟨pos + 1, line⟩) := rfl
    have hat : At source ⟨pos + 1, line⟩ ⟨cs, line⟩ := ⟨h.next (by decide), rfl⟩
    rw [bind_of_ok hmove, scan_apply hfuel asciiOnly_isDigit hat, byteCount_cons, Nat.add_assoc]
    rfl
  · rfl

theorem implements_parseNumber (hfuel : byteCount source < fuel) :
    Implements source n (parseNumber source fuel env) (Picloud.parseNumber env) := by
  rintro ⟨pos, line⟩ ⟨rest, line'⟩ hat hsize
  obtain ⟨hstands, hline⟩ := hat
  cases hline
  dsimp only at hstands
  obtain ⟨cs₁, hsign⟩ := exists_signText rest
  obtain ⟨cs₃, hfraction⟩ := exists_fractionText (cs₁.dropWhile Char.isDigit)
  have htext := numberText_eq hsign
  have hrest : rest = numberText rest ++ cs₃ := by
    rw [htext, List.append_assoc, List.append_assoc, ← hfraction, List.takeWhile_append_dropWhile, ← hsign]
  have hstands₁ : Stands source (pos + byteCount (signText rest)) cs₁ := (hsign ▸ hstands).skip
  have hat₁ : At source ⟨pos + byteCount (signText rest), line⟩ ⟨cs₁, line⟩ := ⟨hstands₁, rfl⟩
  have hstands₂ := hstands₁.takeWhile Char.isDigit
  have hend : pos + byteCount (signText rest) + byteCount (cs₁.takeWhile Char.isDigit) +
      byteCount (fractionText (cs₁.dropWhile Char.isDigit)) = pos + byteCount (numberText rest) := by
    rw [htext, byteCount_append, byteCount_append]
    omega
  have hscanSign : scanSign source ⟨pos, line⟩ = .ok ((), ⟨pos + byteCount (signText rest), line⟩) :=
    scanSign_apply hstands
  rw [hrest] at hstands
  have hposition : position ⟨pos, line⟩ = .ok (pos, ⟨pos, line⟩) := rfl
  have hremaining : Picloud.remaining ⟨rest, line⟩ = .ok (rest, ⟨rest, line⟩) := rfl
  have hskip : skipChars (numberText rest).length ⟨rest, line⟩ = .ok ((), ⟨cs₃, line⟩) := by
    have hdrop : (numberText rest ++ cs₃).drop (numberText rest).length = cs₃ := List.drop_left
    rw [← hrest] at hdrop
    rw [skipChars, hdrop]
  rw [parseNumber, bind_of_ok hposition, bind_of_ok hscanSign,
    bind_of_ok (scan_apply hfuel asciiOnly_isDigit hat₁), bind_of_ok (scanFraction_apply hfuel hstands₂), hend,
    bind_of_ok (sliceBehind_apply hstands), Picloud.parseNumber, bind_of_ok hremaining, bind_of_ok hskip]
  have hat₃ : At source ⟨pos + byteCount (numberText rest), line⟩ ⟨cs₃, line⟩ := ⟨hstands.skip, rfl⟩
  cases env.parseFloat (String.ofList (numberText rest)) with
  | some v => exact .ok hat₃
  | none => exact implements_failHere _ _ _ hat₃ (Nat.lt_succ_self _)

/-- A word ends at a byte as it ends at a character. -/
theorem isWord_iff {word : List Char} (hword : ∀ c ∈ word, c.toNat < 128) (h : Stands source pos rest) :
    (word <+: rest ∧ (!((byteAt source (pos + word.length)).map Char.isAlphanum).getD false) = true) ↔
      isWord word rest = true := by
  rw [isWord, decide_eq_true_eq]
  refine and_congr_right fun hstart => ?_
  obtain ⟨tail, rfl⟩ := hstart
  have hskip := h.skip
  rw [byteCount_of_ascii hword] at hskip
  rw [map_byteAt asciiOnly_isAlphanum hskip, List.drop_left, Bool.not_eq_true']

theorem implements_parseBool : Implements source n (parseBool (F := F) source) Picloud.parseBool := by
  rintro ⟨pos, line⟩ ⟨rest, line'⟩ hat hsize
  have hends : ∀ k, endsBehind source k ⟨pos, line⟩ =
      .ok (!((byteAt source (pos + k)).map Char.isAlphanum).getD false, ⟨pos, line⟩) := fun k => rfl
  have hremaining : Picloud.remaining ⟨rest, line'⟩ = .ok (rest, ⟨rest, line'⟩) := rfl
  have htrue : ("true".toList <+: rest ∧ (!((byteAt source (pos + 4)).map Char.isAlphanum).getD false) = true) ↔
      isWord "true".toList rest = true := isWord_iff (by decide) hat.stands
  have hfalse : ("false".toList <+: rest ∧
      (!((byteAt source (pos + 5)).map Char.isAlphanum).getD false) = true) ↔
      isWord "false".toList rest = true := isWord_iff (by decide) hat.stands
  rw [parseBool, Picloud.parseBool, bind_of_ok (remaining_apply hat), bind_of_ok (hends 4),
    bind_of_ok (hends 5), bind_of_ok hremaining]
  simp only [htrue, hfalse]
  split_ifs with hstart hstart'
  · obtain ⟨⟨tail, rfl⟩, -⟩ := htrue.mpr hstart
    exact .ok ⟨hat.stands.skip, hat.line⟩
  · obtain ⟨⟨tail, rfl⟩, -⟩ := hfalse.mpr hstart'
    exact .ok ⟨hat.stands.skip, hat.line⟩
  · exact implements_failHere _ _ _ hat (Nat.lt_succ_self _)

theorem agrees_parseSecret (hfuel : byteCount source < fuel) (hat : At source t s)
    (hstart : "secret(".toList <+: s.rest) :
    AgreesAt source (parseSecret (F := F) source fuel t) (Picloud.parseSecret s) := by
  obtain ⟨rest, line⟩ := s
  obtain ⟨tail, rfl⟩ := hstart
  have hmove : move 7 t = .ok ((), ⟨t.pos + 7, t.line⟩) := rfl
  have hskip : skipChars 7 ⟨"secret(".toList ++ tail, line⟩ = .ok ((), ⟨tail, line⟩) := rfl
  rw [parseSecret, Picloud.parseSecret, bind_of_ok hmove, bind_of_ok hskip]
  have hrest : Implements source (tail.length + 1) (do
        skipWs source fuel
        let name ← parseString source fuel
        skipWs source fuel
        expectChar source fuel ')'
        return (.secret name : PropertyValue F)) (do
        Picloud.skipWs
        let name ← Picloud.parseString
        Picloud.skipWs
        Picloud.expectChar ')'
        return .secret name) :=
    (implements_skipWs hfuel).seq forward_skipWs fun _ =>
      (implements_parseString hfuel).seq forward_parseString fun _ =>
        (implements_skipWs hfuel).seq forward_skipWs fun _ =>
          (implements_expectChar hfuel _).seq (forward_expectChar _) fun _ => implements_pure _
  have hat' : At source ⟨t.pos + 7, t.line⟩ ⟨tail, line⟩ := ⟨hat.stands.skip, hat.line⟩
  exact hrest _ _ hat' (Nat.lt_succ_self _)

section Recursion

variable {p : CursorParser (Properties F)} {q : SurfaceParser (Properties F)}

/-- What comes behind a block is given its properties. -/
theorem implements_block {α : Type} {f : PropertyValue F → CursorParser α}
    {g : Properties F → SurfaceParser α} (hfuel : byteCount source < fuel) (hp : Implements source n p q)
    (hq : Forward q) (hf : ∀ props, Implements source n (f (.block props)) (g props)) :
    Implements source n (parseBlockValue source fuel p >>= f) (parseBlock q >>= g) := by
  simp only [parseBlockValue, parseBlock, bind_assoc, pure_bind]
  exact (implements_expectChar hfuel _).seq (forward_expectChar _) fun _ => hp.seq hq fun props =>
    (implements_expectChar hfuel _).seq (forward_expectChar _) fun _ => hf props

theorem implements_parseBlockValue (hfuel : byteCount source < fuel) (hp : Implements source n p q)
    (hq : Forward q) : Implements source n (parseBlockValue source fuel p) (do
      return .block (← parseBlock q)) := by
  have hblock := implements_block (f := pure) hfuel hp hq fun props => implements_pure (PropertyValue.block props)
  rwa [bind_pure] at hblock

theorem implements_parseValue (hfuel : byteCount source < fuel) (hp : Implements source n p q)
    (hq : Forward q) :
    Implements source n (parseValue source fuel env p) (Picloud.parseValue env q) := by
  refine (implements_skipWs hfuel).seq forward_skipWs fun _ => ?_
  intro t s hat hsize
  have hremaining : Picloud.remaining s = .ok (s.rest, s) := rfl
  rw [bind_of_ok (remaining_apply hat), bind_of_ok hremaining]
  cases s.rest.head? with
  | none => exact implements_failHere _ _ _ hat hsize
  | some c =>
    dsimp only
    split_ifs with hquote hnumber hbool hsecret hblock
    · exact (implements_parseString hfuel).seq forward_parseString (fun _ => implements_pure _) _ _ hat hsize
    · exact implements_parseNumber hfuel _ _ hat hsize
    · exact implements_parseBool _ _ hat hsize
    · exact agrees_parseSecret hfuel hat hsecret.2
    · exact implements_parseBlockValue hfuel hp hq _ _ hat hsize
    · exact implements_failHere _ _ _ hat hsize

theorem implements_skipSemicolon (hfuel : byteCount source < fuel) :
    Implements source n (skipSemicolon source fuel) Picloud.skipSemicolon := by
  refine (implements_skipWs hfuel).seq forward_skipWs fun _ =>
    implements_peek.seq forward_peek fun next => ?_
  split_ifs
  · exact implements_advance
  · exact implements_pure _

/-- Each round of the loop and each nested block consumes an identifier, so the fuel lasts. -/
theorem implements_parseProperties (hfuel : byteCount source < fuel) (props : Properties F) :
    Implements source n (parseProperties source fuel env n props) (Picloud.parseProperties env n props) := by
  induction n generalizing props with
  | zero => exact fun t s _ hs => absurd hs (Nat.not_lt_zero _)
  | succ n ih =>
    have hforward : Forward (Picloud.parseProperties env n []) := forward_parseProperties n []
    refine (implements_skipWs hfuel).seq forward_skipWs fun _ =>
      implements_peek.seq forward_peek fun next => ?_
    split_ifs
    · exact implements_pure _
    · refine implements_currentLine.seq forward_currentLine fun line =>
        (implements_parseIdent hfuel).bind parseIdent_consumes fun key => ?_
      rw [Nat.add_sub_cancel]
      refine (implements_skipWs hfuel).seq forward_skipWs fun _ =>
        implements_peek.seq forward_peek fun sign => ?_
      split_ifs
      · exact implements_advance.seq forward_advance fun _ =>
          (implements_parseValue hfuel (ih []) hforward).seq (forward_parseValue hforward) fun value =>
            (implements_skipSemicolon hfuel).seq forward_skipSemicolon fun _ => ih _
      · refine implements_block hfuel (ih []) hforward fun block => ?_
        dsimp only
        cases addBlock props key block line with
        | ok props => exact ih props
        | error e => exact implements_throw e
      · exact implements_failHere _

end Recursion

/-! ## Files -/

theorem implements_properties (hfuel : byteCount source < fuel) :
    Implements source fuel (parseProperties source fuel env fuel []) (Picloud.properties env) := by
  intro t s hat hs
  rw [properties_fuel hs]
  exact implements_parseProperties hfuel [] t s hat hs

theorem implements_parseResource (hfuel : byteCount source < fuel) :
    Implements source fuel (parseResource source fuel env) (Picloud.parseResource env) :=
  implements_currentLine.seq forward_currentLine fun _ =>
    (implements_parseIdent hfuel).seq (parseIdent_consumes.mono (Nat.zero_le 1)) fun _ =>
      (implements_parseString hfuel).seq forward_parseString fun _ =>
        (implements_expectChar hfuel _).seq (forward_expectChar _) fun _ =>
          (implements_properties hfuel).seq forward_properties fun _ =>
            (implements_expectChar hfuel _).seq (forward_expectChar _) fun _ => implements_pure _

theorem implements_parseResources (hfuel : byteCount source < fuel) (hn : n ≤ fuel) :
    Implements source n (parseResources source fuel env n) (Picloud.parseResources env n) := by
  induction n with
  | zero => exact fun t s _ hs => absurd hs (Nat.not_lt_zero _)
  | succ n ih =>
    refine (implements_skipWs hfuel).seq forward_skipWs fun _ =>
      implements_peek.seq forward_peek fun next => ?_
    split_ifs
    · exact implements_pure _
    · exact ((implements_parseResource hfuel).mono hn).bind parseResource_consumes fun resource =>
        (ih (by omega)).seq (forward_parseResources n) fun _ => implements_pure _

end Scanner

/-- **On bytes the parser does what it does on characters**: there is no panic, and any fuel above the
number of bytes is enough. -/
theorem parse_eq_mapError {F : Type} (env : SurfaceEnv F) (source path : String) {fuel : ℕ}
    (hfuel : (utf8 source).length < fuel) :
    parse fuel env source path = (Picloud.parse env source path).mapError Failure.reason := by
  rw [utf8_eq_textBytes] at hfuel
  have hlength : source.toList.length < fuel := (length_le_byteCount _).trans_lt hfuel
  have hat : At source.toList ⟨0, 1⟩ ⟨source.toList, 1⟩ := ⟨stands_zero _, rfl⟩
  have himplements : Implements source.toList fuel (parseResources source.toList fuel env fuel)
      (Picloud.parseResources env fuel) := implements_parseResources hfuel le_rfl
  have hagrees := himplements _ _ hat hlength
  rw [parse, parse_fuel source path hlength]
  generalize parseResources source.toList fuel env fuel ⟨0, 1⟩ = r at hagrees ⊢
  generalize Picloud.parseResources env fuel ⟨source.toList, 1⟩ = r' at hagrees ⊢
  cases hagrees with
  | ok h => rfl
  | error e => rfl

end Cursor

end Picloud
