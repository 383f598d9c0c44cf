import Picloud.Bicep.Texts

/-!
# The Bicep parser on the bytes of a text

Reference: `picloud-domain/src/parser.rs`, from `split_bicep_declarations` to `parse_bicep_value`, as the
code runs it: it goes on byte by byte, and slices the text at its positions. A slice that is not at
boundaries of characters is a panic, a loop that uses up its fuel has not ended. From a boundary the
parser does what it does on characters (`implements_parseBicepValue`, `implements_splitLoop`).
-/

namespace Picloud.Bicep.Bytes

open Lib ParserOf PosParser

/-! ## White space, comments, quotes and braces -/

section Scanner

variable (input : List Char) (fuel : ℕ)

/-- `*pos + 1 < input.len() && &input[*pos..*pos + 2] == "//"`. -/
def startsComment : PosParser Bool := fun pos =>
  if pos + 1 < byteCount input then
    match slice input pos (pos + 2) with
    | some text => .ok (text = "//".toList, pos)
    | none => .error .panic
  else .ok (false, pos)

/-- The loop of `skip_ws_and_comments`. -/
def skipWsLoop : ℕ → PosParser Unit
  | 0 => throw .timeout
  | n + 1 => do
    scan input fuel isAsciiWhitespace
    if ← startsComment input then
      scan input fuel (· ≠ '\n')
      skipWsLoop n
    else return ()

/-- `skip_ws_and_comments`. -/
def skipWsAndComments : PosParser Unit := skipWsLoop input fuel fuel

/-- `skip_ws_inline`. -/
def skipWsInline : PosParser Unit := scan input fuel fun c => c = ' ' || c = '\t'

/-- `read_quoted_string`. -/
def readQuotedString : PosParser String := do
  match ← byte input with
  | some q =>
    if isQuote q then
      move 1
      let start ← position
      scan input fuel (· ≠ q)
      match ← byte input with
      | some _ =>
        let text ← sliceBehind input start
        move 1
        return String.ofList text
      | none => throw (.reason "unterminated string")
    else expected
  | none => expected
where
  /-- There is no quotation mark. -/
  expected : PosParser String := do
    let pos ← position
    throw (.reason ("expected quoted string at position " ++ toString pos))

/-- The loop of `read_braced_block`; it ends at a depth of 0, or behind the end of the text. The depth is an
`i32`; it is not bounded here. -/
def blockLoop : ℕ → ℕ → PosParser ℕ
  | 0, _ => throw .timeout
  | n + 1, depth => do
    match ← byte input with
    | none => return depth
    | some c =>
      if depth = 0 then return depth
      else if c = '\x7b' then
        move 1
        blockLoop n (depth + 1)
      else if c = '\x7d' then
        if 0 < depth - 1 then move 1
        blockLoop n (depth - 1)
      else if isQuote c then
        move 1
        scan input fuel (· ≠ c)
        move 1
        blockLoop n depth
      else
        move 1
        blockLoop n depth

/-- `read_braced_block`. -/
def readBracedBlock : PosParser (List Char) := do
  match ← byte input with
  | none => throw .panic
  | some c =>
    if c = '\x7b' then
      move 1
      let start ← position
      let depth ← blockLoop input fuel fuel 1
      if depth = 0 then
        let body ← sliceBehind input start
        move 1
        return body
      else throw (.reason "unterminated block — missing '\x7d'")
    else throw (.reason "expected '\x7b'")

end Scanner

/-! ## Values -/

section Values

variable (fuel : ℕ)

/-- A key, quoted or bare. -/
def parseKey (body : List Char) : PosParser String := do
  let first ← byte body
  if (first.map isQuote).getD false then readQuotedString body fuel
  else
    let start ← position
    scan body fuel isKeyChar
    let key ← sliceBehind body start
    return trim (String.ofList key)

/-- The loop of `parse_bicep_kv`, for a parser of the values; its test is the one behind the white
space. -/
def parseKvLoop (body : List Char) (value : PosParser BicepValue) : ℕ → PosParser Pairs
  | 0 => throw .timeout
  | n + 1 => do
    skipWsAndComments body fuel
    match ← byte body with
    | none => return []
    | some c =>
      if c = ',' then
        move 1
        parseKvLoop body value n
      else
        let key ← parseKey fuel body
        if key = "" then return []
        else
          scan body fuel (· ≠ ':')
          match ← byte body with
          | none => return []
          | some _ =>
            move 1
            skipWsInline body fuel
            let v ← value
            let pairs ← parseKvLoop body value n
            return (key, v) :: pairs

/-- The loop over the elements of an array, for a parser of the values. -/
def parseItems (input : List Char) (value : PosParser BicepValue) : ℕ → PosParser (List BicepValue)
  | 0 => throw .timeout
  | n + 1 => do
    skipWsAndComments input fuel
    match ← byte input with
    | none => throw (.reason "unterminated array")
    | some c =>
      if c = ']' then
        move 1
        return []
      else if c = ',' then
        move 1
        parseItems input value n
      else
        let v ← value
        let items ← parseItems input value n
        return v :: items

/-- Run on another text, from its beginning. -/
def within {α : Type} (p : PosParser α) : PosParser α := fun pos => (p 0).map fun r => (r.1, pos)

/-- `parse_bicep_value`. -/
def parseBicepValue : ℕ → List Char → PosParser BicepValue
  | 0, _ => throw .timeout
  | n + 1, input => do
    skipWsAndComments input fuel
    match ← byte input with
    | none => throw (.reason "unexpected end of input while parsing value")
    | some c =>
      if isQuote c then return .str (← readQuotedString input fuel)
      else if c = '[' then
        move 1
        return .array (← parseItems fuel input (parseBicepValue n input) n)
      else if c = '\x7b' then
        let block ← readBracedBlock input fuel
        return .object (← within (parseKvLoop fuel block (parseBicepValue n block) n))
      else
        let start ← position
        scan input fuel isTokenChar
        let token ← sliceBehind input start
        return tokenValue (trim (String.ofList token))

/-- `parse_bicep_kv`. -/
def parseBicepKv (body : List Char) : Except Failure Pairs :=
  (parseKvLoop fuel body (parseBicepValue fuel fuel body) fuel 0).map Prod.fst

/-! ## Declarations -/

/-- A declaration, up to the brace that closes its body. -/
def readDeclaration (input : List Char) : PosParser TextDecl := do
  let start ← position
  scan input fuel fun c => !isAsciiWhitespace c
  let resourceType ← sliceBehind input start
  scan input fuel fun c => isAsciiWhitespace c && c ≠ '\n'
  let name ← readQuotedString input fuel
  scan input fuel fun c => isAsciiWhitespace c || c = '='
  if (← byte input) = some '\x7b' then
    let body ← readBracedBlock input fuel
    return ⟨String.ofList resourceType, name, body⟩
  else throw (.reason ("expected '\x7b' after " ++ String.ofList resourceType ++ " '" ++ name ++ "'"))

/-- The loop of `split_bicep_declarations`; its test is the one behind the white space. -/
def splitLoop (input : List Char) : ℕ → PosParser (List TextDecl)
  | 0 => throw .timeout
  | n + 1 => do
    scan input fuel isAsciiWhitespace
    match ← byte input with
    | none => return []
    | some _ =>
      if ← startsComment input then
        scan input fuel (· ≠ '\n')
        splitLoop input n
      else
        let decl ← readDeclaration fuel input
        let decls ← splitLoop input n
        return decl :: decls

/-- `split_bicep_declarations`. -/
def splitBicepDeclarations (input : List Char) : Except Failure (List TextDecl) :=
  (splitLoop fuel input fuel 0).map Prod.fst

end Values

/-! ## The scanner on characters -/

section Scanning

variable {source rest cs : List Char} {fuel n pos depth : ℕ}

/-- The runs agree. -/
abbrev AgreesIn {α : Type} (source : List Char) (r : Except Failure (α × ℕ))
    (r' : Except Trouble (α × List Char)) : Prop := AgreesAt source Trouble.failure r r'

/-- The parser on bytes does what the one on characters does, on less than so many characters. -/
abbrev ImplementsIn {α : Type} (source : List Char) (n : ℕ) (p : PosParser α) (q : TextParser α) : Prop :=
  ImplementsAt source Trouble.failure n p q

theorem asciiOnly_isAsciiWhitespace : AsciiOnly isAsciiWhitespace :=
  ((((asciiOnly_eq (by decide)).or (asciiOnly_eq (by decide))).or (asciiOnly_eq (by decide))).or
    (asciiOnly_eq (by decide))).or (asciiOnly_eq (by decide))

theorem asciiOnly_isQuote : AsciiOnly isQuote := (asciiOnly_eq (by decide)).or (asciiOnly_eq (by decide))

theorem asciiOnly_isTokenChar : AsciiOnly isTokenChar :=
  ((asciiOnly_isAsciiWhitespace.not.and (asciiOnly_ne (by decide))).and (asciiOnly_ne (by decide))).and
    (asciiOnly_ne (by decide))

theorem asciiOnly_isKeyChar : AsciiOnly isKeyChar :=
  (asciiOnly_ne (by decide)).and asciiOnly_isAsciiWhitespace.not

variable {c : Char} {body : List Char}

theorem ascii_of_isQuote (h : isQuote c = true) : c.toNat < 128 := by
  rw [isQuote, Bool.or_eq_true, decide_eq_true_eq, decide_eq_true_eq] at h
  rcases h with rfl | rfl <;> decide

/-- The look-ahead slices at a boundary exactly when the second byte ends a character. -/
theorem implements_startsComment :
    ImplementsIn source n (startsComment source) Bicep.startsComment := by
  intro pos rest h _
  have hcount := h.add_byteCount
  have hslice : slice source pos (pos + 2) = sliceTo rest 2 := by
    rw [slice, if_pos (by omega), sliceFrom_eq_some_iff.mpr h, Nat.add_sub_cancel_left]
    rfl
  rw [startsComment, Bicep.startsComment, hslice]
  by_cases htwo : 2 ≤ byteCount rest
  · rw [if_pos htwo, if_pos (by omega)]
    cases sliceTo rest 2 with
    | some text => exact .ok h
    | none => exact .error Trouble.panic
  · rw [if_neg htwo, if_neg (by omega)]
    exact .ok h

theorem agrees_skipWsLoop (hfuel : byteCount source < fuel) (h : Stands source pos rest)
    (hn : rest.length < n) :
    AgreesIn source (skipWsLoop source fuel n pos) (Bicep.skipWsAndComments rest) := by
  induction n generalizing pos rest with
  | zero => omega
  | succ n ih =>
    have hstands := h.takeWhile isAsciiWhitespace
    have hlength := (List.dropWhile_suffix isAsciiWhitespace (l := rest)).length_le
    have hhead := List.head?_dropWhile_not isAsciiWhitespace rest
    rw [skipWsLoop, bind_of_ok (scan_apply hfuel asciiOnly_isAsciiWhitespace h), Bicep.skipWsAndComments,
      skipWsFrom_dropWhile]
    generalize rest.dropWhile isAsciiWhitespace = rest' at hstands hlength hhead ⊢
    generalize pos + byteCount (rest.takeWhile isAsciiWhitespace) = pos' at hstands ⊢
    have hcomment := implements_startsComment pos' rest' hstands (Nat.lt_succ_self _)
    generalize hbytes : startsComment source pos' = r at hcomment
    generalize hchars : Bicep.startsComment rest' = r' at hcomment
    cases rest' with
    | nil =>
      have hnil : Bicep.startsComment [] = .ok (false, []) := rfl
      cases hnil.symm.trans hchars
      cases hcomment with
      | ok hend =>
        rw [bind_of_ok hbytes]
        exact .ok hend
    | cons c cs =>
      have hws : ¬ isAsciiWhitespace c = true := by simpa using hhead
      rw [skipWsFrom, if_neg hws, hchars]
      cases hcomment with
      | error e =>
        rw [bind_apply, hbytes]
        exact .error e
      | @ok starts pos'' rest'' hstands'' =>
        obtain rfl := startsComment_state hchars
        rw [bind_of_ok hbytes]
        cases starts with
        | false => exact .ok hstands''
        | true =>
          have hne : c ≠ '\n' := by
            rintro rfl
            exact hws rfl
          have hdrop : (c :: cs).dropWhile (· ≠ '\n') = cs.dropWhile (· ≠ '\n') :=
            List.dropWhile_cons_of_pos (by simpa using hne)
          have hcs := (List.dropWhile_suffix (· ≠ '\n') (l := cs)).length_le
          have hline := hstands''.takeWhile (· ≠ '\n')
          rw [hdrop] at hline
          rw [List.length_cons] at hlength
          simp only [if_true]
          rw [bind_of_ok (scan_apply hfuel (asciiOnly_ne (by decide)) hstands''), skipLineFrom_eq]
          exact ih hline (by omega)

theorem implements_skipWsAndComments (hfuel : byteCount source < fuel) :
    ImplementsIn source n (skipWsAndComments source fuel) Bicep.skipWsAndComments := by
  intro pos rest h _
  refine agrees_skipWsLoop hfuel h ((length_le_byteCount rest).trans_lt ?_)
  have := h.add_byteCount
  omega

theorem implements_skipWsInline (hfuel : byteCount source < fuel) :
    ImplementsIn source n (skipWsInline source fuel) Bicep.skipWsInline :=
  implements_skip hfuel ((asciiOnly_eq (by decide)).or (asciiOnly_eq (by decide)))

theorem implements_readQuotedString (hfuel : byteCount source < fuel) :
    ImplementsIn source n (readQuotedString source fuel) (Bicep.readQuotedString source) := by
  intro pos rest h _
  have hpos : pos = byteCount source - byteCount rest := by
    have := h.add_byteCount
    omega
  have hexpected : ∀ {cs : List Char}, rest = cs → AgreesIn source
      (readQuotedString.expected pos) (Bicep.readQuotedString.expected source cs) := by
    rintro cs rfl
    have hposition : position pos = .ok (pos, pos) := rfl
    rw [Bicep.readQuotedString.expected, ← hpos, readQuotedString.expected, bind_of_ok hposition]
    exact .error (Trouble.reason _)
  refine agrees_byte h (fun hnil => hexpected hnil) fun c cs d hrest hsame => ?_
  subst hrest
  by_cases hquote : isQuote c = true
  · -- a quotation mark is its own byte
    have hascii := ascii_of_isQuote hquote
    obtain rfl : d = c := (hsame c hascii).mpr rfl
    have hcs := h.next hascii
    have hmove : move 1 pos = .ok ((), pos + 1) := rfl
    have hnext : (CharParser.next : TextParser Unit) (d :: cs) = .ok ((), cs) := rfl
    have hposition : position (pos + 1) = .ok (pos + 1, pos + 1) := rfl
    have htaken : (CharParser.taken (· ≠ d) : TextParser (List Char)) cs =
        .ok (cs.takeWhile (· ≠ d), cs.dropWhile (· ≠ d)) := rfl
    have hend := hcs.takeWhile (· ≠ d)
    have hsplit : Stands source (pos + 1) (cs.takeWhile (· ≠ d) ++ cs.dropWhile (· ≠ d)) := by
      rwa [List.takeWhile_append_dropWhile]
    simp only [hquote, if_true]
    rw [bind_of_ok hmove, bind_of_ok hnext, bind_of_ok hposition,
      bind_of_ok (scan_apply hfuel (asciiOnly_ne hascii) hcs), bind_of_ok htaken]
    refine agrees_byte hend (fun _ => .error (Trouble.reason _)) fun x xs y hdrop _ => ?_
    obtain rfl : x = d := by
      have hhead := List.head?_dropWhile_not (· ≠ d) cs
      rw [hdrop] at hhead
      simpa using hhead
    rw [hdrop] at hend
    dsimp only
    rw [bind_of_ok (sliceBehind_apply hsplit)]
    exact .ok (hend.next hascii)
  · have hd : ¬ isQuote d = true := by
      simp only [isQuote, Bool.or_eq_true, decide_eq_true_eq] at hquote ⊢
      rwa [hsame '\'' (by decide), hsame '"' (by decide)]
    simp only [hquote, hd]
    exact hexpected rfl

/-! ### Braces -/

/-- A byte of a block that is no brace and no quotation mark. -/
def isPlain (c : Char) : Bool := c ≠ '\x7b' && c ≠ '\x7d' && !isQuote c

theorem asciiOnly_isPlain : AsciiOnly isPlain :=
  ((asciiOnly_ne (by decide)).and (asciiOnly_ne (by decide))).and asciiOnly_isQuote.not

theorem blockLoop_plain (hdepth : depth ≠ 0) (n pos : ℕ) (hbyte : byteAt source pos = some c)
    (hc : isPlain c = true) :
    blockLoop source fuel (n + 1) depth pos = blockLoop source fuel n depth (pos + 1) := by
  have hread : byte source pos = .ok (some c, pos) := by rw [byte, hbyte]
  simp only [isPlain, Bool.and_eq_true, decide_eq_true_eq, Bool.not_eq_true'] at hc
  rw [blockLoop, bind_of_ok hread]
  simp only [hdepth, if_false, hc.1.1, hc.1.2, hc.2]
  rfl

theorem blockBody_plain {text : List Char} (htext : ∀ c ∈ text, isPlain c = true) (cs : List Char) :
    blockBody depth (text ++ cs) = (blockBody depth cs).map fun r => (text ++ r.1, r.2) := by
  induction text with
  | nil => simp
  | cons c text ih =>
    have hc := htext c List.mem_cons_self
    simp only [isPlain, Bool.and_eq_true, decide_eq_true_eq, Bool.not_eq_true'] at hc
    rw [List.cons_append, blockBody, if_neg hc.1.1, if_neg hc.1.2, if_neg (by simp [hc.2]),
      ih fun d hd => htext d (List.mem_cons_of_mem c hd), Option.map_map]
    rfl

theorem quotedBody_eq (q : Char) (cs : List Char) : quotedBody q depth cs =
    match cs.dropWhile (· ≠ q) with
    | [] => none
    | _ :: behind => (blockBody depth behind).map fun r => (cs.takeWhile (· ≠ q) ++ q :: r.1, r.2) := by
  induction cs with
  | nil => rfl
  | cons c cs ih =>
    rw [quotedBody]
    by_cases hc : c = q
    · rw [if_pos hc, List.dropWhile_cons_of_neg (by simpa using hc),
        List.takeWhile_cons_of_neg (by simpa using hc), hc]
      rfl
    · rw [if_neg hc, List.dropWhile_cons_of_pos (by simpa using hc),
        List.takeWhile_cons_of_pos (by simpa using hc), ih]
      cases cs.dropWhile (· ≠ q) with
      | nil => rfl
      | cons x behind => rw [Option.map_map]; rfl

/-- The loop of `read_braced_block` comes to the brace that closes the block, or to the end. -/
def BlockEnds (source : List Char) (pos : ℕ) (run : Except Failure (ℕ × ℕ)) :
    Option (List Char × List Char) → Prop
  | some (body, behind) => run = .ok (0, pos + byteCount body) ∧
      Stands source pos (body ++ '\x7d' :: behind)
  | none => ∃ depth pos', depth ≠ 0 ∧ run = .ok (depth, pos')

/-- A block that begins behind some text. -/
theorem blockEnds_map {text : List Char} {run : Except Failure (ℕ × ℕ)}
    {result : Option (List Char × List Char)} (hstart : Stands source pos (text ++ rest))
    (h : BlockEnds source (pos + byteCount text) run result) :
    BlockEnds source pos run (result.map fun r => (text ++ r.1, r.2)) := by
  cases result with
  | none => exact h
  | some r =>
    refine ⟨?_, ?_⟩
    · rw [byteCount_append, ← Nat.add_assoc]
      exact h.1
    · rw [List.append_assoc, ← hstart.skip.unique h.2]
      exact hstart

/-- The loop at a brace or a quotation mark, given what it does behind it. -/
theorem blockEnds_special (hfuel : byteCount source < fuel) (h : Stands source pos (c :: cs))
    (hc : isPlain c = false) (hdepth : depth ≠ 0) (hn : byteCount (c :: cs) ≤ n)
    (ih : ∀ {pos depth : ℕ} {rest : List Char}, rest.length ≤ cs.length → Stands source pos rest →
      depth ≠ 0 → byteCount rest < n →
      BlockEnds source pos (blockLoop source fuel n depth pos) (blockBody depth rest)) :
    BlockEnds source pos (blockLoop source fuel (n + 1) depth pos) (blockBody depth (c :: cs)) := by
  have hascii : c.toNat < 128 := by
    by_contra hlarge
    have hplain := asciiOnly_isPlain c (Char.ofNat 128) (by omega) (by decide)
    rw [hc] at hplain
    exact absurd hplain (by decide)
  have hcs := h.next hascii
  have hsize : byteCount (c :: cs) = byteCount cs + 1 := by
    rw [byteCount_cons, utf8Size_of_ascii hascii, Nat.add_comm]
  have hone : byteCount [c] = 1 := byteCount_of_ascii (by simpa using hascii)
  have hread : byte source pos = .ok (some c, pos) := by rw [byte, byteAt_ascii h hascii]
  have hstart : Stands source pos ([c] ++ cs) := h
  have hmap : ∀ {depth' : ℕ}, depth' ≠ 0 → BlockEnds source pos (blockLoop source fuel n depth' (pos + 1))
      ((blockBody depth' cs).map fun r => (c :: r.1, r.2)) := fun hdepth' =>
    blockEnds_map hstart (by rw [hone]; exact ih (Nat.le_refl _) hcs hdepth' (by omega))
  rw [blockLoop, bind_of_ok hread, blockBody]
  simp only [hdepth, if_false]
  by_cases hopen : c = '\x7b'
  · rw [if_pos hopen, if_pos hopen]
    exact hmap (Nat.succ_ne_zero depth)
  by_cases hclose : c = '\x7d'
  · rw [if_neg hopen, if_neg hopen, if_pos hclose, if_pos hclose]
    by_cases hlast : depth = 1
    · -- the loop stands at the last brace, and its next round ends it
      subst hlast hclose
      obtain ⟨m, rfl⟩ : ∃ m, n = m + 1 := ⟨n - 1, by omega⟩
      have hround : blockLoop source fuel (m + 1) 0 pos = .ok (0, pos) := by
        rw [blockLoop, bind_of_ok hread]
        rfl
      rw [if_pos rfl]
      exact ⟨hround, h⟩
    · rw [if_neg hlast, if_pos (show 0 < depth - 1 by omega)]
      exact hmap (show depth - 1 ≠ 0 by omega)
  · have hquote : isQuote c = true := by
      simpa [isPlain, hopen, hclose] using hc
    have hlength := (List.dropWhile_suffix (· ≠ c) (l := cs)).length_le
    have hend := hcs.takeWhile (· ≠ c)
    have hmove : ∀ pos, move 1 pos = .ok ((), pos + 1) := fun _ => rfl
    rw [if_neg hopen, if_neg hopen, if_neg hclose, if_neg hclose, if_pos hquote, if_pos hquote,
      bind_of_ok (hmove pos), bind_of_ok (scan_apply hfuel (asciiOnly_ne hascii) hcs),
      bind_of_ok (hmove _), quotedBody_eq]
    have hsplit := List.takeWhile_append_dropWhile (p := (· ≠ c)) (l := cs)
    have hhead := List.head?_dropWhile_not (· ≠ c) cs
    have hbytes := hend.add_byteCount
    have hpos := hcs.add_byteCount
    generalize cs.dropWhile (· ≠ c) = quoteEnd at hlength hend hsplit hhead hbytes ⊢
    generalize cs.takeWhile (· ≠ c) = text at hend hsplit hbytes ⊢
    cases quoteEnd with
    | nil =>
      -- the string is not closed, and the next round is behind the end of the text
      obtain ⟨m, rfl⟩ : ∃ m, n = m + 1 := ⟨n - 1, by omega⟩
      rw [byteCount_nil] at hbytes
      have hover : byte source (pos + 1 + byteCount text + 1) =
          .ok (none, pos + 1 + byteCount text + 1) := by
        rw [byte, byteAt_of_le (by omega)]
      rw [blockLoop, bind_of_ok hover]
      exact ⟨depth, _, hdepth, rfl⟩
    | cons d behind =>
      obtain rfl : d = c := by simpa using hhead
      have hbehind := hend.next hascii
      have hsize' : byteCount (d :: behind) = byteCount behind + 1 := by
        rw [byteCount_cons, utf8Size_of_ascii hascii, Nat.add_comm]
      rw [List.length_cons] at hlength
      have htext : byteCount (d :: (text ++ [d])) = 1 + byteCount text + 1 := by
        rw [byteCount_cons, byteCount_append, hone, utf8Size_of_ascii hascii, Nat.add_assoc]
      have hwhole : Stands source pos (d :: (text ++ [d]) ++ behind) := by
        rw [List.cons_append, List.append_assoc, List.singleton_append, hsplit]
        exact h
      have hnext : BlockEnds source (pos + byteCount (d :: (text ++ [d])))
          (blockLoop source fuel n depth (pos + 1 + byteCount text + 1)) (blockBody depth behind) := by
        rw [htext, ← Nat.add_assoc, ← Nat.add_assoc]
        exact ih (by omega) hbehind hdepth (by omega)
      have hrest := blockEnds_map hwhole hnext
      rw [Option.map_map]
      convert hrest using 3
      simp

theorem blockEnds_blockLoop (hfuel : byteCount source < fuel) (h : Stands source pos rest)
    (hdepth : depth ≠ 0) (hn : byteCount rest < n) :
    BlockEnds source pos (blockLoop source fuel n depth pos) (blockBody depth rest) := by
  induction hlength : rest.length using Nat.strong_induction_on generalizing rest pos depth n with
  | _ k ih =>
    subst hlength
    have hsplit := List.takeWhile_append_dropWhile (p := isPlain) (l := rest)
    have hall : ∀ c ∈ rest.takeWhile isPlain, isPlain c = true := fun c hc => List.mem_takeWhile_imp hc
    have hstands := h.takeWhile isPlain
    have hlength := (List.dropWhile_suffix isPlain (l := rest)).length_le
    have hhead := List.head?_dropWhile_not isPlain rest
    have hbytes := congrArg byteCount hsplit
    rw [byteCount_append] at hbytes
    have hrun := run_takeWhile (f := fun n pos => blockLoop source fuel n depth pos) asciiOnly_isPlain
      (fun n pos c => blockLoop_plain hdepth n pos) h (n - byteCount (rest.takeWhile isPlain))
    rw [Nat.sub_add_cancel (by omega)] at hrun
    have hbody : blockBody depth (rest.takeWhile isPlain ++ rest.dropWhile isPlain) = _ :=
      blockBody_plain hall _
    rw [hsplit] at hbody
    rw [show blockLoop source fuel n depth pos = _ from hrun, hbody]
    have hstart : Stands source pos (rest.takeWhile isPlain ++ rest.dropWhile isPlain) := by rwa [hsplit]
    refine blockEnds_map hstart ?_
    generalize rest.dropWhile isPlain = special at hstands hlength hhead hbytes
    generalize pos + byteCount (rest.takeWhile isPlain) = pos' at hstands
    obtain ⟨m, hm⟩ : ∃ m, n - byteCount (rest.takeWhile isPlain) = m + 1 :=
      ⟨n - byteCount (rest.takeWhile isPlain) - 1, by omega⟩
    rw [hm]
    cases special with
    | nil =>
      have hread : byte source pos' = .ok (none, pos') := by rw [byte, byteAt_nil hstands]
      rw [blockLoop, bind_of_ok hread, blockBody]
      exact ⟨depth, pos', hdepth, rfl⟩
    | cons c cs =>
      rw [List.length_cons] at hlength
      refine blockEnds_special hfuel hstands (by simpa using hhead) hdepth (by omega) ?_
      intro pos depth rest' hrest' hstands' hdepth' hn'
      exact ih rest'.length (by omega) hstands' hdepth' hn' rfl

/-- What the body of a block is part of. -/
theorem blockBody_ok {behind : List Char} (hdepth : depth ≠ 0)
    (h : blockBody depth rest = some (body, behind)) : rest = body ++ '\x7d' :: behind := by
  have hends := blockEnds_blockLoop (Nat.lt_succ_self (byteCount rest)) (stands_zero rest) hdepth
    (Nat.lt_succ_self (byteCount rest))
  rw [h] at hends
  exact (stands_zero rest).unique hends.2

theorem readBracedBlock_ok {behind : List Char}
    (h : Bicep.readBracedBlock rest = .ok (body, behind)) :
    rest = '\x7b' :: (body ++ '\x7d' :: behind) := by
  cases rest with
  | nil => cases h
  | cons c cs =>
    rw [Bicep.readBracedBlock] at h
    split_ifs at h with hc
    cases hbody : blockBody 1 cs with
    | none =>
      rw [hbody] at h
      cases h
    | some r =>
      rw [hbody] at h
      cases h
      rw [hc, blockBody_ok one_ne_zero hbody]

theorem consumes_readBracedBlock : Consumes List.length 2 Bicep.readBracedBlock := by
  intro rest body behind h
  rw [readBracedBlock_ok h]
  simp only [List.length_cons, List.length_append]
  omega

theorem implements_readBracedBlock (hfuel : byteCount source < fuel) :
    ImplementsIn source n (readBracedBlock source fuel) Bicep.readBracedBlock := by
  intro pos rest h _
  cases rest with
  | nil =>
    have hread : byte source pos = .ok (none, pos) := by rw [byte, byteAt_nil h]
    rw [readBracedBlock, bind_of_ok hread]
    exact .error Trouble.panic
  | cons c cs =>
    obtain ⟨d, hd, hsame⟩ := exists_byteAt h
    have hread : byte source pos = .ok (some d, pos) := by rw [byte, hd]
    rw [readBracedBlock, bind_of_ok hread, Bicep.readBracedBlock]
    simp only [hsame '\x7b' (by decide)]
    by_cases hc : c = '\x7b'
    · subst hc
      have hcs := h.next (by decide)
      have hcount := hcs.add_byteCount
      have hends := blockEnds_blockLoop hfuel hcs one_ne_zero (n := fuel) (by omega)
      have hmove : ∀ pos, move 1 pos = .ok ((), pos + 1) := fun _ => rfl
      have hposition : position (pos + 1) = .ok (pos + 1, pos + 1) := rfl
      rw [if_pos rfl, if_pos rfl, bind_of_ok (hmove pos), bind_of_ok hposition]
      cases hbody : blockBody 1 cs with
      | none =>
        rw [hbody] at hends
        obtain ⟨depth, pos', hdepth, hloop⟩ := hends
        rw [bind_of_ok hloop, if_neg hdepth]
        exact .error (Trouble.reason _)
      | some r =>
        obtain ⟨body, behind⟩ := r
        rw [hbody] at hends
        obtain ⟨hloop, hstands⟩ := hends
        rw [bind_of_ok hloop, if_pos rfl, bind_of_ok (sliceBehind_apply hstands), bind_of_ok (hmove _)]
        exact .ok (hstands.skip.next (by decide))
    · rw [if_neg hc, if_neg hc]
      exact .error (Trouble.reason _)

/-! ## Values -/

variable {m k : ℕ} {value : PosParser BicepValue} {value' : TextParser BicepText}

/-- The reader goes on where a token stands. -/
def Advances (value' : TextParser BicepText) : Prop :=
  ∀ c cs v rest', skipWsFrom (c :: cs) = .ok (c :: cs) → isTokenChar c = true →
    value' (c :: cs) = .ok (v, rest') → rest'.length ≤ cs.length

/-- The parser stands still at a closing brace. -/
def StandsStill (source : List Char) (value : PosParser BicepValue) : Prop :=
  ∀ pos cs, Stands source pos ('\x7d' :: cs) → skipWsFrom ('\x7d' :: cs) = .ok ('\x7d' :: cs) →
    value pos = .error .timeout ∨ ∃ v, value pos = .ok (v, pos)

/-- Where there is no white space and no comment, none is skipped. -/
theorem skipWsAndComments_fixed (hfuel : byteCount source < fuel) (h : Stands source pos rest)
    (hfixed : skipWsFrom rest = .ok rest) : skipWsAndComments source fuel pos = .ok ((), pos) := by
  have hagrees := implements_skipWsAndComments hfuel pos rest h (Nat.lt_succ_self _)
  rw [Bicep.skipWsAndComments, hfixed] at hagrees
  generalize skipWsAndComments source fuel pos = run at hagrees ⊢
  cases hagrees with
  | ok h' =>
    have hcount := h.add_byteCount
    have hcount' := h'.add_byteCount
    congr 2
    omega

/-- **At a closing brace the loop over the elements does not end**, whatever fuel it has. -/
theorem parseItems_stray (hfuel : byteCount source < fuel) (hstill : StandsStill source value)
    (h : Stands source pos ('\x7d' :: cs)) (hfixed : skipWsFrom ('\x7d' :: cs) = .ok ('\x7d' :: cs))
    (n : ℕ) : parseItems fuel source value n pos = .error .timeout := by
  induction n with
  | zero => rfl
  | succ n ih =>
    have hread : byte source pos = .ok (some '\x7d', pos) := by rw [byte, byteAt_ascii h (by decide)]
    rw [parseItems, bind_of_ok (skipWsAndComments_fixed hfuel h hfixed), bind_of_ok hread]
    simp only [Char.reduceEq, if_false]
    rcases hstill pos cs h hfixed with htimeout | ⟨v, hv⟩
    · rw [bind_apply, htimeout]
      rfl
    · rw [bind_of_ok hv, bind_apply, ih]
      rfl

theorem implements_parseItems (hfuel : byteCount source < fuel) (hadvances : Advances value')
    (hstill : StandsStill source value)
    (hvalue : ImplementsIn source k value (do return (← value').value)) (hn : k ≤ n) (hm : k ≤ m) :
    ImplementsIn source k (parseItems fuel source value n)
      (do return itemValues (← Bicep.parseItems value' m)) := by
  induction k generalizing n m with
  | zero =>
    intro pos rest h hsize
    omega
  | succ k ih =>
    obtain ⟨n, rfl⟩ : ∃ n', n = n' + 1 := ⟨n - 1, by omega⟩
    obtain ⟨m, rfl⟩ : ∃ m', m = m' + 1 := ⟨m - 1, by omega⟩
    have hnext := ih (hvalue.mono (Nat.le_succ k)) (show k ≤ n by omega) (show k ≤ m by omega)
    intro pos rest h hsize
    rw [parseItems, Bicep.parseItems, bind_assoc]
    refine (implements_skipWsAndComments hfuel pos rest h hsize).bind fun _ pos rest' hskip h => ?_
    obtain ⟨hsuffix, hfixed⟩ := skipWsFrom_ok (skipWsAndComments_ok hskip)
    have hlength := hsuffix.length_le
    rw [bind_assoc]
    refine agrees_byte h (fun _ => .error (Trouble.reason _)) fun c cs d hrest hsame => ?_
    subst hrest
    rw [List.length_cons] at hlength
    simp only [hsame ']' (by decide), hsame ',' (by decide)]
    by_cases hclose : c = ']'
    · subst hclose
      exact .ok (h.next (by decide))
    by_cases hcomma : c = ','
    · subst hcomma
      exact hnext (pos + 1) cs (h.next (by decide)) (by omega)
    by_cases hbrace : c = '\x7d'
    · -- the code tries to read a value there again and again
      subst hbrace
      simp only [Char.reduceEq, if_false, if_true]
      rcases hstill pos cs h hfixed with htimeout | ⟨v, hv⟩
      · rw [bind_apply, htimeout]
        exact .error Trouble.strayBrace
      · rw [bind_of_ok hv, bind_apply, parseItems_stray hfuel hstill h hfixed n]
        exact .error Trouble.strayBrace
    · have htoken : isTokenChar c = true := by
        simp [isTokenChar, not_isAsciiWhitespace_of_skipWsFrom hfixed, hclose, hcomma, hbrace]
      simp only [hclose, hcomma, hbrace, if_false]
      rw [bind_assoc]
      refine (hvalue pos (c :: cs) h (by rw [List.length_cons]; omega)).bindMap
        fun v pos' rest'' hv h' => ?_
      have hprogress := hadvances c cs v rest'' hfixed htoken hv
      rw [bind_assoc]
      exact (hnext pos' rest'' h' (by omega)).bindMap fun items pos rest _ h => .ok h

theorem implements_parseKey (hfuel : byteCount source < fuel) :
    ImplementsIn source n (parseKey fuel source) (Bicep.parseKey source) := by
  intro pos rest h hsize
  have hbare : ImplementsIn source n (do
      let start ← position
      scan source fuel isKeyChar
      let key ← sliceBehind source start
      return trim (String.ofList key)) (do
      let key ← CharParser.taken isKeyChar
      return trim (String.ofList key)) := by
    exact fun pos rest h _ => agrees_taken hfuel asciiOnly_isKeyChar h fun _ _ _ _ h => .ok h
  have hstands := h
  refine agrees_byte h (fun hnil => ?_) fun c cs d hrest hsame => ?_
  · subst hnil
    exact hbare pos [] hstands hsize
  · subst hrest
    have hsameQuote : isQuote d = isQuote c := by
      rw [Bool.eq_iff_iff]
      simp only [isQuote, Bool.or_eq_true, decide_eq_true_eq, hsame '\'' (by decide), hsame '"' (by decide)]
    simp only [Option.map_some, Option.getD_some, hsameQuote]
    by_cases hquote : isQuote c = true
    · rw [if_pos hquote, if_pos hquote]
      exact implements_readQuotedString hfuel pos (c :: cs) hstands hsize
    · rw [if_neg hquote, if_neg hquote]
      exact hbare pos (c :: cs) hstands hsize

theorem implements_parseKvLoop (hfuel : byteCount source < fuel)
    (hvalue : ImplementsIn source k value (do return (← value').value)) (hforward : CharParser.Forward value')
    (hn : k ≤ n) (hm : k ≤ m) : ImplementsIn source k (parseKvLoop fuel source value n)
      (do return pairValues (← Bicep.parseKvLoop source value' m)) := by
  induction k generalizing n m with
  | zero =>
    intro pos rest h hsize
    omega
  | succ k ih =>
    obtain ⟨n, rfl⟩ : ∃ n', n = n' + 1 := ⟨n - 1, by omega⟩
    obtain ⟨m, rfl⟩ : ∃ m', m = m' + 1 := ⟨m - 1, by omega⟩
    have hnext := ih (hvalue.mono (Nat.le_succ k)) (show k ≤ n by omega) (show k ≤ m by omega)
    intro pos rest h hsize
    rw [parseKvLoop, Bicep.parseKvLoop, bind_assoc]
    refine (implements_skipWsAndComments hfuel pos rest h hsize).bind fun _ pos rest' hskip h => ?_
    have hlength := (skipWsFrom_ok (skipWsAndComments_ok hskip)).1.length_le
    rw [bind_assoc]
    have hstands := h
    refine agrees_byte h (fun hnil => .ok (hnil ▸ hstands)) fun c cs d hrest hsame => ?_
    subst hrest
    simp only [hsame ',' (by decide)]
    by_cases hcomma : c = ','
    · subst hcomma
      rw [List.length_cons] at hlength
      exact hnext (pos + 1) cs (h.next (by decide)) (by omega)
    simp only [hcomma, if_false]
    rw [bind_assoc]
    refine (implements_parseKey hfuel pos (c :: cs) h (Nat.lt_of_le_of_lt hlength hsize)).bind
      fun key pos keyEnd hkey h => ?_
    have hkeyEnd := forward_parseKey source _ _ _ hkey
    by_cases hempty : key = ""
    · simp only [hempty, if_true]
      exact .ok h
    simp only [hempty, if_false]
    rw [bind_assoc]
    refine (implements_skip (n := k + 1) hfuel (asciiOnly_ne (by decide)) pos keyEnd h (by omega)).bind
      fun _ pos colon hcolon h => ?_
    have hcolonLength := CharParser.forward_skip _ _ _ _ hcolon
    rw [bind_assoc]
    have hstands := h
    refine agrees_byte h (fun hnil => .ok (hnil ▸ hstands)) fun x xs d hrest hsame => ?_
    have hx : x = ':' := by
      have hhead := List.head?_dropWhile_not (· ≠ ':') keyEnd
      cases hcolon
      rw [hrest] at hhead
      simpa using hhead
    subst hrest hx
    rw [List.length_cons] at hcolonLength
    dsimp only
    rw [bind_assoc]
    refine (agrees_next h (by decide)).bind fun _ pos behind hbehind h => ?_
    cases hbehind
    rw [bind_assoc]
    refine (implements_skipWsInline (n := k) hfuel pos xs h (by omega)).bind fun _ pos start hstart h => ?_
    have hstartLength := CharParser.forward_skip _ _ _ _ hstart
    rw [bind_assoc]
    refine (hvalue pos start h (by omega)).bindMap fun v pos rest hv h => ?_
    have hrestLength := hforward _ _ _ hv
    rw [bind_assoc]
    exact (hnext pos rest h (by omega)).bindMap fun pairs pos rest _ h => .ok h

theorem forward_parseItems (hforward : CharParser.Forward value') (m : ℕ) :
    CharParser.Forward (Bicep.parseItems value' m) := by
  induction m with
  | zero => exact consumes_throw _
  | succ m ih =>
    refine forward_skipWsAndComments.seq fun _ => CharParser.forward_front.seq fun first => ?_
    cases first with
    | none => exact consumes_throw _
    | some c =>
      dsimp only
      split_ifs
      · exact CharParser.forward_next.seq fun _ => consumes_pure _
      · exact CharParser.forward_next.seq fun _ => ih
      · exact consumes_throw _
      · exact hforward.seq fun _ => ih.seq fun _ => consumes_pure _

theorem forward_within {α : Type} (q : TextParser α) (text : List Char) :
    CharParser.Forward (Bicep.within q text) := by
  intro rest a rest' h
  rw [Bicep.within] at h
  cases hrun : q text with
  | error e =>
    rw [hrun] at h
    cases h
  | ok r =>
    rw [hrun] at h
    cases h
    exact Nat.le_refl _

/-- What a value does where it stands. -/
theorem parseBicepValue_apply (m : ℕ) (source : List Char)
    (hfixed : skipWsFrom (c :: cs) = .ok (c :: cs)) :
    Bicep.parseBicepValue (m + 1) source (c :: cs) =
      if isQuote c then (do return .quoted (← Bicep.readQuotedString source) : TextParser BicepText) (c :: cs)
      else if c = '[' then
        (do return .array (← Bicep.parseItems (Bicep.parseBicepValue m source) m) : TextParser BicepText) cs
      else if c = '\x7b' then
        (do
          let block ← Bicep.readBracedBlock
          return .object (← Bicep.within (Bicep.parseKvLoop block (Bicep.parseBicepValue m block) m) block) :
            TextParser BicepText) (c :: cs)
      else .ok (.bare (trim (String.ofList ((c :: cs).takeWhile isTokenChar))),
        (c :: cs).dropWhile isTokenChar) := by
  have hskip : Bicep.skipWsAndComments (c :: cs) = .ok ((), c :: cs) := by
    rw [Bicep.skipWsAndComments, hfixed]
    rfl
  have hfront : (CharParser.front : TextParser (Option Char)) (c :: cs) = .ok (some c, c :: cs) := rfl
  rw [Bicep.parseBicepValue, bind_of_ok hskip, bind_of_ok hfront]
  dsimp only
  split_ifs <;> rfl

theorem forward_parseBicepValue (m : ℕ) (source : List Char) :
    CharParser.Forward (Bicep.parseBicepValue m source) := by
  induction m generalizing source with
  | zero => exact consumes_throw _
  | succ m ih =>
    refine forward_skipWsAndComments.seq fun _ => CharParser.forward_front.seq fun first => ?_
    cases first with
    | none => exact consumes_throw _
    | some c =>
      dsimp only
      split_ifs
      · exact (forward_readQuotedString source).seq fun _ => consumes_pure _
      · exact CharParser.forward_next.seq fun _ => (forward_parseItems (ih source) m).seq fun _ =>
          consumes_pure _
      · exact (consumes_readBracedBlock.mono (Nat.zero_le 2)).seq fun block =>
          (forward_within _ block).seq fun _ => consumes_pure _
      · exact (CharParser.forward_taken _).seq fun _ => consumes_pure _

theorem advances_parseBicepValue (m : ℕ) (source : List Char) :
    Advances (Bicep.parseBicepValue m source) := by
  intro c cs v rest' hfixed htoken h
  cases m with
  | zero => cases h
  | succ m =>
    rw [parseBicepValue_apply m source hfixed] at h
    split_ifs at h with hquote hopen hbrace
    · obtain ⟨text, rest, htext, hv⟩ := exists_of_bind_ok h
      cases hv
      have hconsumes := consumes_readQuotedString source _ _ _ htext
      rw [List.length_cons] at hconsumes
      omega
    · obtain ⟨items, rest, hitems, hv⟩ := exists_of_bind_ok h
      cases hv
      exact forward_parseItems (forward_parseBicepValue m source) m _ _ _ hitems
    · obtain ⟨block, rest, hblock, hv⟩ := exists_of_bind_ok h
      obtain ⟨pairs, rest'', hpairs, hv⟩ := exists_of_bind_ok hv
      cases hv
      have hconsumes := consumes_readBracedBlock _ _ _ hblock
      have hwithin := forward_within _ _ _ _ _ hpairs
      rw [List.length_cons] at hconsumes
      omega
    · cases h
      rw [List.dropWhile_cons_of_pos htoken]
      exact (List.dropWhile_suffix isTokenChar).length_le

/-- Each round of the parser of a value takes what stands there for an empty token. -/
theorem standsStill_parseBicepValue (hfuel : byteCount source < fuel) (n : ℕ) :
    StandsStill source (parseBicepValue fuel n source) := by
  intro pos cs h hfixed
  cases n with
  | zero => exact .inl rfl
  | succ n =>
    have hread : byte source pos = .ok (some '\x7d', pos) := by rw [byte, byteAt_ascii h (by decide)]
    have hposition : position pos = .ok (pos, pos) := rfl
    have hscan := scan_apply hfuel asciiOnly_isTokenChar h
    have hslice : Stands source pos ([] ++ '\x7d' :: cs) := h
    right
    rw [parseBicepValue, bind_of_ok (skipWsAndComments_fixed hfuel h hfixed), bind_of_ok hread]
    simp only [isQuote, Char.reduceEq, decide_false, Bool.or_self, Bool.false_eq_true, if_false]
    rw [bind_of_ok hposition, bind_of_ok hscan]
    exact ⟨_, bind_of_ok (sliceBehind_apply hslice)⟩

/-- **The parser of a value on bytes does what the one on characters does**, with fuel for each character;
where that one meets a closing brace among the elements of an array, this one does not end. -/
theorem implements_parseBicepValue (hfuel : byteCount source < fuel) (hn : k ≤ n) (hm : k ≤ m) :
    ImplementsIn source k (parseBicepValue fuel n source)
      (do return (← Bicep.parseBicepValue m source).value) := by
  induction k generalizing n m source with
  | zero =>
    intro pos rest h hsize
    omega
  | succ k ih =>
    obtain ⟨n, rfl⟩ : ∃ n', n = n' + 1 := ⟨n - 1, by omega⟩
    obtain ⟨m, rfl⟩ : ∃ m', m = m' + 1 := ⟨m - 1, by omega⟩
    have hinner : ∀ {text : List Char}, byteCount text < fuel →
        ImplementsIn text k (parseBicepValue fuel n text)
          (do return (← Bicep.parseBicepValue m text).value) := fun htext =>
      ih htext (show k ≤ n by omega) (show k ≤ m by omega)
    intro pos rest h hsize
    rw [parseBicepValue, Bicep.parseBicepValue, bind_assoc]
    refine (implements_skipWsAndComments hfuel pos rest h hsize).bind fun _ pos rest' hskip h => ?_
    have hlength := (skipWsFrom_ok (skipWsAndComments_ok hskip)).1.length_le
    rw [bind_assoc]
    have hstands := h
    refine agrees_byte h (fun _ => .error (Trouble.reason _)) fun c cs d hrest hsame => ?_
    subst hrest
    have hsameQuote : isQuote d = isQuote c := by
      rw [Bool.eq_iff_iff]
      simp only [isQuote, Bool.or_eq_true, decide_eq_true_eq, hsame '\'' (by decide), hsame '"' (by decide)]
    simp only [hsameQuote, hsame '[' (by decide), hsame '\x7b' (by decide)]
    have hcs := hlength
    rw [List.length_cons] at hcs
    split_ifs with hquote hopen hbrace
    · rw [bind_assoc]
      exact (implements_readQuotedString hfuel pos (c :: cs) h (Nat.lt_succ_of_le le_rfl)).bind
        fun _ _ _ _ h => .ok h
    · subst hopen
      rw [bind_assoc]
      refine (agrees_next h (by decide)).bind fun _ pos behind hbehind h => ?_
      cases hbehind
      rw [bind_assoc]
      exact (implements_parseItems hfuel (advances_parseBicepValue m source)
        (standsStill_parseBicepValue hfuel n) (hinner hfuel) (show k ≤ n by omega) (show k ≤ m by omega)
        pos cs h (by omega)).bindMap fun _ _ _ _ h => .ok h
    · rw [bind_assoc]
      refine (implements_readBracedBlock hfuel pos (c :: cs) h (Nat.lt_succ_of_le le_rfl)).bind
        fun block pos behind hblock h => ?_
      have hparts := congrArg List.length (readBracedBlock_ok hblock)
      have hbytes := congrArg byteCount (readBracedBlock_ok hblock)
      have hcount := hstands.add_byteCount
      simp only [List.length_cons, List.length_append] at hparts
      rw [byteCount_cons '\x7b', byteCount_append] at hbytes
      have hfuel' : byteCount block < fuel := by omega
      have hkv := implements_parseKvLoop hfuel' (hinner hfuel') (forward_parseBicepValue m block)
        (show k ≤ n by omega) (show k ≤ m by omega) 0 block (stands_zero block) (by omega)
      rw [bind_assoc]
      rw [bind_apply] at hkv ⊢
      rw [within, bind_apply, Bicep.within]
      generalize parseKvLoop fuel block (parseBicepValue fuel n block) n 0 = run at hkv ⊢
      generalize Bicep.parseKvLoop block (Bicep.parseBicepValue m block) m block = run' at hkv ⊢
      cases run' with
      | error e =>
        cases hkv
        exact .error e
      | ok r =>
        cases hkv
        exact .ok h
    · rw [bind_assoc]
      exact agrees_taken hfuel asciiOnly_isTokenChar h fun _ _ _ _ h => .ok h

/-- The parser of a block on bytes ends as the one on characters does. -/
theorem parseBicepKv_eq {body : List Char} (hfuel : byteCount body < fuel) :
    parseBicepKv fuel body = ((Bicep.parseBicepKv body).map pairValues).mapError Trouble.failure := by
  have hlength := length_le_byteCount body
  have hvalue : ImplementsIn body (body.length + 1) (parseBicepValue fuel fuel body)
      (do return (← Bicep.parseBicepValue (body.length + 1) body).value) :=
    implements_parseBicepValue hfuel (by omega) le_rfl
  have hkv := implements_parseKvLoop hfuel hvalue (forward_parseBicepValue _ body)
    (show body.length + 1 ≤ fuel by omega) le_rfl 0 body (stands_zero body) (Nat.lt_succ_self _)
  rw [bind_apply] at hkv
  rw [parseBicepKv, Bicep.parseBicepKv]
  generalize parseKvLoop fuel body (parseBicepValue fuel fuel body) fuel 0 = run at hkv ⊢
  generalize Bicep.parseKvLoop body _ _ body = run' at hkv ⊢
  cases run' with
  | error e =>
    cases hkv
    rfl
  | ok r =>
    cases hkv
    rfl

/-! ## Declarations -/

/-- Where the body of a declaration stands. -/
theorem readDeclaration_ok {decl : TextDecl}
    (h : Bicep.readDeclaration source rest = .ok (decl, cs)) :
    '\x7b' :: (decl.body ++ '\x7d' :: cs) <:+ rest := by
  obtain ⟨_, _, htype, h⟩ := exists_of_bind_ok h
  cases htype
  obtain ⟨_, _, hspace, h⟩ := exists_of_bind_ok h
  cases hspace
  obtain ⟨name, _, hname, h⟩ := exists_of_bind_ok h
  obtain ⟨q, text, -, hquote, -, hdrop⟩ := readQuotedString_ok hname
  obtain ⟨_, _, hequals, h⟩ := exists_of_bind_ok h
  cases hequals
  obtain ⟨_, _, hfront, h⟩ := exists_of_bind_ok h
  cases hfront
  split_ifs at h
  · obtain ⟨body, _, hbody, h⟩ := exists_of_bind_ok h
    cases h
    rw [← readBracedBlock_ok hbody]
    have hbehind := (List.suffix_cons q _).trans (hdrop ▸ List.dropWhile_suffix (· ≠ q) (l := text))
    have hquoted := hbehind.trans (List.suffix_cons q text)
    rw [← hquote] at hquoted
    exact (((List.dropWhile_suffix _).trans hquoted).trans (List.dropWhile_suffix _)).trans
      (List.dropWhile_suffix _)
  · cases h

theorem consumes_readDeclaration (source : List Char) :
    Consumes List.length 2 (Bicep.readDeclaration source) := by
  intro rest decl rest' h
  have hlength := (readDeclaration_ok h).length_le
  simp only [List.length_cons, List.length_append] at hlength
  omega

theorem byteCount_le_of_suffix (h : cs <:+ rest) : byteCount cs ≤ byteCount rest := by
  obtain ⟨before, rfl⟩ := h
  rw [byteCount_append]
  omega

/-- The bodies of the declarations are parts of the text. -/
theorem byteCount_body_le {decls : List TextDecl} (n : ℕ)
    (h : Bicep.splitLoop source n rest = .ok (decls, cs)) :
    ∀ decl ∈ decls, byteCount decl.body ≤ byteCount rest := by
  induction n generalizing rest decls with
  | zero => cases h
  | succ n ih =>
    obtain ⟨_, _, hskip, h⟩ := exists_of_bind_ok h
    cases hskip
    have hstart := byteCount_le_of_suffix (List.dropWhile_suffix isAsciiWhitespace (l := rest))
    obtain ⟨first, _, hfront, h⟩ := exists_of_bind_ok h
    cases hfront
    generalize rest.dropWhile isAsciiWhitespace = start at hstart h
    cases start with
    | nil =>
      cases h
      exact fun decl hdecl => absurd hdecl List.not_mem_nil
    | cons c cs =>
      obtain ⟨starts, _, hstarts, h⟩ := exists_of_bind_ok h
      obtain rfl := startsComment_state hstarts
      cases starts with
      | true =>
        obtain ⟨_, _, hline, h⟩ := exists_of_bind_ok h
        cases hline
        have hbehind := byteCount_le_of_suffix (List.dropWhile_suffix (· ≠ '\n') (l := c :: cs))
        exact fun decl hdecl => (ih h decl hdecl).trans (hbehind.trans hstart)
      | false =>
        obtain ⟨decl, _, hdecl, h⟩ := exists_of_bind_ok h
        obtain ⟨decls', _, hdecls, h⟩ := exists_of_bind_ok h
        cases h
        have hparts := byteCount_le_of_suffix (readDeclaration_ok hdecl)
        rw [byteCount_cons, byteCount_append, byteCount_cons] at hparts
        intro d hd
        rcases List.mem_cons.mp hd with rfl | hd
        · omega
        · have := ih hdecls d hd
          omega

theorem byteCount_body_of_split {decls : List TextDecl}
    (h : Bicep.splitBicepDeclarations source = .ok decls) :
    ∀ decl ∈ decls, byteCount decl.body ≤ byteCount source := by
  rw [Bicep.splitBicepDeclarations] at h
  cases hrun : Bicep.splitLoop source (source.length + 1) source with
  | error e =>
    rw [hrun] at h
    cases h
  | ok r =>
    rw [hrun] at h
    cases h
    exact byteCount_body_le (source.length + 1) hrun

theorem implements_readDeclaration (hfuel : byteCount source < fuel) :
    ImplementsIn source n (readDeclaration fuel source) (Bicep.readDeclaration source) := by
  have hspace : AsciiOnly fun c => isAsciiWhitespace c && c ≠ '\n' :=
    asciiOnly_isAsciiWhitespace.and (asciiOnly_ne (by decide))
  have hequals : AsciiOnly fun c => isAsciiWhitespace c || c = '=' :=
    asciiOnly_isAsciiWhitespace.or (asciiOnly_eq (by decide))
  intro pos rest h _
  rw [readDeclaration, Bicep.readDeclaration]
  refine agrees_taken hfuel asciiOnly_isAsciiWhitespace.not h fun resourceType pos rest _ h => ?_
  refine (implements_skip hfuel hspace pos rest h (Nat.lt_succ_self _)).bind fun _ pos rest _ h => ?_
  refine (implements_readQuotedString hfuel pos rest h (Nat.lt_succ_self _)).bind
    fun name pos rest _ h => ?_
  refine (implements_skip hfuel hequals pos rest h (Nat.lt_succ_self _)).bind fun _ pos rest _ h => ?_
  have hstands := h
  refine agrees_byte h (fun _ => .error (Trouble.reason _)) fun c cs d hrest hsame => ?_
  subst hrest
  simp only [Option.some.injEq, hsame '\x7b' (by decide)]
  split_ifs
  · exact (implements_readBracedBlock hfuel pos (c :: cs) hstands (Nat.lt_succ_self _)).bind
      fun _ _ _ _ h => .ok h
  · exact .error (Trouble.reason _)

theorem implements_splitLoop (hfuel : byteCount source < fuel) (hn : k ≤ n) (hm : k ≤ m) :
    ImplementsIn source k (splitLoop fuel source n) (Bicep.splitLoop source m) := by
  induction k generalizing n m with
  | zero =>
    intro pos rest h hsize
    omega
  | succ k ih =>
    obtain ⟨n, rfl⟩ : ∃ n', n = n' + 1 := ⟨n - 1, by omega⟩
    obtain ⟨m, rfl⟩ : ∃ m', m = m' + 1 := ⟨m - 1, by omega⟩
    have hnext := ih (show k ≤ n by omega) (show k ≤ m by omega)
    intro pos rest h hsize
    rw [splitLoop, Bicep.splitLoop]
    refine (implements_skip (n := k + 1) hfuel asciiOnly_isAsciiWhitespace pos rest h hsize).bind
      fun _ pos rest' hskip h => ?_
    have hlength := CharParser.forward_skip _ _ _ _ hskip
    have hhead := List.head?_dropWhile_not isAsciiWhitespace rest
    cases hskip
    generalize rest.dropWhile isAsciiWhitespace = rest' at hlength hhead h ⊢
    have hstands := h
    refine agrees_byte h (fun hnil => .ok (hnil ▸ hstands)) fun c cs d hrest hsame => ?_
    subst hrest
    have hws : isAsciiWhitespace c = false := by simpa using hhead
    rw [List.length_cons] at hlength
    refine (implements_startsComment pos (c :: cs) h (Nat.lt_succ_self _)).bind fun starts pos rest'' hstarts h => ?_
    obtain rfl := startsComment_state hstarts
    cases starts with
    | true =>
      have hne : c ≠ '\n' := by
        rintro rfl
        exact absurd hws (by decide)
      refine (implements_skip (n := k + 1) hfuel (asciiOnly_ne (by decide)) pos (c :: cs) h (by
        rw [List.length_cons]; omega)).bind fun _ pos rest'' hline h => ?_
      cases hline
      have hdrop : (c :: cs).dropWhile (· ≠ '\n') = cs.dropWhile (· ≠ '\n') :=
        List.dropWhile_cons_of_pos (by simpa using hne)
      have hcs := (List.dropWhile_suffix (· ≠ '\n') (l := cs)).length_le
      rw [hdrop] at h ⊢
      exact hnext pos _ h (by omega)
    | false =>
      simp only [Bool.false_eq_true, if_false]
      refine (implements_readDeclaration hfuel pos (c :: cs) h (Nat.lt_succ_self _)).bind
        fun decl pos behind hdecl h => ?_
      have hbehind := consumes_readDeclaration source _ _ _ hdecl
      rw [List.length_cons] at hbehind
      exact (hnext pos behind h (by omega)).bind fun _ _ _ _ h => .ok h

/-- The split on bytes ends as the one on characters does. -/
theorem splitBicepDeclarations_eq {input : List Char} (hfuel : byteCount input < fuel) :
    splitBicepDeclarations fuel input =
      (Bicep.splitBicepDeclarations input).mapError Trouble.failure := by
  have hlength := length_le_byteCount input
  have hsplit := implements_splitLoop (n := fuel) (m := input.length + 1) (k := input.length + 1) hfuel
    (by omega) le_rfl 0 input (stands_zero input) (Nat.lt_succ_self _)
  rw [splitBicepDeclarations, Bicep.splitBicepDeclarations]
  generalize splitLoop fuel input fuel 0 = run at hsplit ⊢
  generalize Bicep.splitLoop input _ input = run' at hsplit ⊢
  cases hsplit with
  | error e => rfl
  | ok h => rfl

end Scanning

end Picloud.Bicep.Bytes
