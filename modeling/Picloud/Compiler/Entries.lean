import Picloud.Compiler.Parser

/-!
# The assignments and blocks of a text

`parseEntries` reads the same text as the parser of the surface syntax, and keeps each assignment and each
block where it stands, with the text from its first token on. What the parser returns is put together from
these entries by `mergeEntries`, and the lines in it are those of the first tokens (`merge_of_parse`).
-/

namespace Picloud

open Lib ParserOf

variable {F : Type}

/-! ## Entries -/

/-- A value that is no block. -/
def PropertyValue.isScalar : PropertyValue F → Bool
  | .block _ | .blocks _ => false
  | _ => true

/-- What stands in a block of the text: an assignment of a scalar, an assignment of a block, or a block.
`start` is the text from the key on. -/
inductive SurfaceEntry (F : Type) where
  | scalar (key : String) (start : List Char) (value : {v : PropertyValue F // v.isScalar = true})
  | assigned (key : String) (start : List Char) (entries : List (SurfaceEntry F))
  | block (key : String) (start : List Char) (entries : List (SurfaceEntry F))

/-- The key of an entry. -/
def SurfaceEntry.key : SurfaceEntry F → String
  | .scalar key _ _ | .assigned key _ _ | .block key _ _ => key

/-- The text from the key of an entry on. -/
def SurfaceEntry.start : SurfaceEntry F → List Char
  | .scalar _ start _ | .assigned _ start _ | .block _ start _ => start

/-- A resource of the text, with the text from its first token on. -/
structure ResourceEntry (F : Type) where
  resourceType : String
  name : String
  start : List Char
  entries : List (SurfaceEntry F)

/-! ## Reading the entries -/

variable (env : SurfaceEnv F)

/-- The braces around some contents. -/
def braces {α : Type} (contents : SurfaceParser α) : SurfaceParser α := do
  expectChar '\x7b'
  let a ← contents
  expectChar '\x7d'
  return a

/-- A value that is no block. -/
def parseScalar : SurfaceParser {v : PropertyValue F // v.isScalar = true} := do
  let v ← parseValue env (throw "no block here")
  if h : v.isScalar = true then return ⟨v, h⟩
  else throw "no block here"

/-- The next character behind white space and comments. -/
def nextChar : SurfaceParser (Option Char) := fun s =>
  .ok ((skipWsFrom s.rest s.line).rest.head?, s)

/-- The entry of an assignment. -/
def parseAssigned (key : String) (start : List Char) (entries : SurfaceParser (List (SurfaceEntry F))) :
    SurfaceParser (SurfaceEntry F) := do
  if (← nextChar) = some '\x7b' then
    let block ← braces entries
    return .assigned key start block
  else
    let value ← parseScalar env
    return .scalar key start value

/-- The entries up to the end of a block. -/
def parseEntries : ℕ → SurfaceParser (List (SurfaceEntry F))
  | 0 => throw "out of fuel"
  | fuel + 1 => do
    skipWs
    let next ← peek
    if next = some '\x7d' ∨ next = none then return []
    else
      let start ← remaining
      let key ← parseIdent
      skipWs
      let sign ← peek
      if sign = some '=' then
        advance
        let entry ← parseAssigned env key start (parseEntries fuel)
        skipSemicolon
        let entries ← parseEntries fuel
        return entry :: entries
      else if sign = some '\x7b' then
        let block ← braces (parseEntries fuel)
        let entries ← parseEntries fuel
        return .block key start block :: entries
      else throw "no entry"

/-- The entries up to the end of the block, with more fuel than there is input. -/
def entriesHere : SurfaceParser (List (SurfaceEntry F)) := fun s => parseEntries env (s.rest.length + 1) s

/-- A resource with its entries. -/
def parseResourceEntry : SurfaceParser (ResourceEntry F) := do
  let start ← remaining
  let resourceType ← parseIdent
  let name ← parseString
  expectChar '\x7b'
  let entries ← entriesHere env
  expectChar '\x7d'
  return ⟨resourceType, name, start, entries⟩

/-- The resources of a text. -/
def parseResourceEntries : ℕ → SurfaceParser (List (ResourceEntry F))
  | 0 => throw "out of fuel"
  | fuel + 1 => do
    skipWs
    if (← peek) = none then return []
    else
      let resource ← parseResourceEntry env
      let resources ← parseResourceEntries fuel
      return resource :: resources

/-- The resources of a source text, as they stand there. -/
def entriesOf (source : String) : Except String (List (ResourceEntry F)) :=
  (parseResourceEntries env (source.toList.length + 1) ⟨source.toList, 1⟩).map Prod.fst

/-! ## Putting the entries together -/

variable (lineOf : List Char → ℕ)

mutual

/-- Take up an entry beside the properties before it. -/
def SurfaceEntry.mergeInto : SurfaceEntry F → Properties F → Except String (Properties F)
  | .scalar key start value, props => .ok (assign props key value.1 (lineOf start))
  | .assigned key start entries, props =>
    match mergeEntries entries [] with
    | .ok block => .ok (assign props key (.block block) (lineOf start))
    | .error e => .error e
  | .block key start entries, props =>
    match mergeEntries entries [] with
    | .ok block => addBlock props key block (lineOf start)
    | .error e => .error e

/-- Take up entries one after the other. -/
def mergeEntries : List (SurfaceEntry F) → Properties F → Except String (Properties F)
  | [], props => .ok props
  | entry :: entries, props =>
    match entry.mergeInto props with
    | .ok props => mergeEntries entries props
    | .error e => .error e

end

/-- The resource is put together from the entries. -/
structure MergedFrom (entry : ResourceEntry F) (resource : ResourceDecl F) : Prop where
  resourceType : resource.resourceType = entry.resourceType
  name : resource.name = entry.name
  line : resource.line = lineOf entry.start
  properties : mergeEntries lineOf entry.entries [] = .ok resource.properties

/-! ## True lines -/

/-- One and the newlines of the source before the text that is left. -/
def lineAt (source start : List Char) : ℕ := 1 + (source.count '\n' - start.count '\n')

/-- What is left is an end of the source, and the line is that of its beginning. -/
structure TrueLine (source : List Char) (s : ParserState) : Prop where
  suffix : s.rest <:+ source
  line : s.line = lineAt source s.rest

variable {lineOf} {source : List Char} {s : ParserState}

theorem count_le_of_suffix {cs : List Char} (h : cs <:+ source) : cs.count '\n' ≤ source.count '\n' :=
  h.sublist.count_le _

/-- Going on over some text adds its newlines to the line. -/
theorem TrueLine.skip {text cs : List Char} (h : TrueLine source s) (hrest : s.rest = text ++ cs) :
    TrueLine source ⟨cs, s.line + text.count '\n'⟩ := by
  have hsuffix : text ++ cs <:+ source := hrest ▸ h.suffix
  refine ⟨(List.suffix_append text cs).trans hsuffix, ?_⟩
  have hle := count_le_of_suffix hsuffix
  have hline := h.line
  rw [hrest, lineAt] at hline
  rw [List.count_append] at hle hline
  simp only [lineAt]
  omega

theorem TrueLine.skip_of_notMem {text cs : List Char} (h : TrueLine source s)
    (hrest : s.rest = text ++ cs) (hnot : '\n' ∉ text) : TrueLine source ⟨cs, s.line⟩ := by
  have := h.skip hrest
  rwa [List.count_eq_zero_of_not_mem hnot] at this

/-! ## The scanner keeps the lines true -/

mutual

theorem skipWsFrom_splits (cs : List Char) (line : ℕ) :
    ∃ text, cs = text ++ (skipWsFrom cs line).rest ∧
      (skipWsFrom cs line).line = line + text.count '\n' := by
  match cs with
  | [] => exact ⟨[], rfl, rfl⟩
  | c :: cs =>
    rw [skipWsFrom]
    split_ifs with hnewline hspace hslash
    · obtain ⟨text, hcs, hline⟩ := skipWsFrom_splits cs (line + 1)
      refine ⟨c :: text, by rw [List.cons_append, ← hcs], ?_⟩
      rw [hline, hnewline, List.count_cons_self]
      omega
    · obtain ⟨text, hcs, hline⟩ := skipWsFrom_splits cs line
      exact ⟨c :: text, by rw [List.cons_append, ← hcs], by
        rw [hline, List.count_cons_of_ne hnewline]⟩
    · obtain ⟨text, hcs, hline⟩ := skipCommentFrom_splits cs line
      exact ⟨c :: text, by rw [List.cons_append, ← hcs], by
        rw [hline, List.count_cons_of_ne hnewline]⟩
    · exact ⟨[], rfl, rfl⟩

theorem skipCommentFrom_splits (cs : List Char) (line : ℕ) :
    ∃ text, cs = text ++ (skipCommentFrom cs line).rest ∧
      (skipCommentFrom cs line).line = line + text.count '\n' := by
  match cs with
  | [] => exact ⟨[], rfl, rfl⟩
  | c :: cs =>
    rw [skipCommentFrom]
    split_ifs with hnewline
    · obtain ⟨text, hcs, hline⟩ := skipWsFrom_splits cs (line + 1)
      refine ⟨c :: text, by rw [List.cons_append, ← hcs], ?_⟩
      rw [hline, hnewline, List.count_cons_self]
      omega
    · obtain ⟨text, hcs, hline⟩ := skipCommentFrom_splits cs line
      exact ⟨c :: text, by rw [List.cons_append, ← hcs], by
        rw [hline, List.count_cons_of_ne hnewline]⟩

end

section Scanner

variable {source : List Char}

theorem keeps_skipWs : Keeps (TrueLine source) skipWs := by
  refine keeps_of_forall ?_
  rintro s a s' hs h
  cases h
  obtain ⟨text, hrest, hline⟩ := skipWsFrom_splits s.rest s.line
  have hskip := hs.skip hrest
  rwa [← hline] at hskip

theorem keeps_peek : Keeps (TrueLine source) peek := by
  refine keeps_of_forall ?_
  rintro s a s' hs h
  cases h
  exact hs

theorem keeps_remaining : Keeps (TrueLine source) remaining := by
  refine keeps_of_forall ?_
  rintro s a s' hs h
  cases h
  exact hs

theorem keeps_advance : Keeps (TrueLine source) advance := by
  refine keeps_of_forall ?_
  rintro ⟨rest, line⟩ a s' hs h
  cases rest with
  | nil =>
    cases h
    exact hs
  | cons c cs =>
    cases h
    have hskip : TrueLine source ⟨cs, line + [c].count '\n'⟩ := hs.skip rfl
    by_cases hc : c = '\n'
    · simpa [hc] using hskip
    · simpa [hc] using hskip

theorem simulates_failHere {α γ : Type} {R : α → γ → Prop} (message : String)
    (r : SurfaceParser γ) : Simulates (TrueLine source) R (failHere (α := α) message) r := by
  rintro s a s' hs h
  cases h

theorem keeps_expectChar (expected : Char) : Keeps (TrueLine source) (expectChar expected) := by
  refine keeps_skipWs.seq fun _ => keeps_peek.seq fun next => ?_
  split
  · split_ifs
    · exact keeps_advance
    · exact simulates_failHere _ _
  · exact simulates_failHere _ _

theorem keeps_scanIdent : Keeps (TrueLine source) scanIdent := by
  refine keeps_of_forall ?_
  rintro s a s' hs h
  cases h
  refine hs.skip_of_notMem (List.takeWhile_append_dropWhile).symm fun hmem => ?_
  have := List.mem_takeWhile_imp hmem
  exact absurd this (by decide)

theorem keeps_parseIdent : Keeps (TrueLine source) parseIdent := by
  refine keeps_skipWs.seq fun _ => keeps_peek.seq fun first => ?_
  split_ifs
  · exact keeps_scanIdent
  · exact simulates_failHere _ _

theorem keeps_parseString : Keeps (TrueLine source) parseString := by
  refine keeps_skipWs.seq fun _ => (keeps_expectChar _).seq fun _ => keeps_of_forall ?_
  rintro s text s' hs h
  obtain ⟨cs, hrest, -, rfl⟩ := scanString_eq_ok.mp h
  have hskip : TrueLine source ⟨cs, s.line + (text.toList ++ ['"']).count '\n'⟩ :=
    hs.skip (by rw [hrest]; simp)
  simpa [List.count_append] using hskip

/-- Going on by some characters that are no newlines. -/
theorem keeps_skipChars {s s' : ParserState} {k : ℕ} {u : Unit} (hs : TrueLine source s)
    (hnot : '\n' ∉ s.rest.take k) (h : skipChars k s = .ok (u, s')) : TrueLine source s' := by
  cases h
  exact hs.skip_of_notMem (List.take_append_drop k s.rest).symm hnot

/-! ## Values -/

/-- A value that is no block is read by one of four parsers. -/
inductive ScalarRead (env : SurfaceEnv F) (s s' : ParserState) : PropertyValue F → Prop
  | string {text : String} (h : parseString s = .ok (text, s')) : ScalarRead env s s' (.string text)
  | number {v : PropertyValue F} (h : parseNumber env s = .ok (v, s')) : ScalarRead env s s' v
  | bool {v : PropertyValue F} (h : parseBool s = .ok (v, s')) : ScalarRead env s s' v
  | secret {v : PropertyValue F} (hstart : "secret(".toList <+: s.rest)
      (h : parseSecret s = .ok (v, s')) : ScalarRead env s s' v

variable {env : SurfaceEnv F} {s s' : ParserState} {v : PropertyValue F}
  {p p' : SurfaceParser (Properties F)}

/-- What `parse_value` reads, by the first character of the value. -/
theorem parseValue_cases (h : parseValue env p s = .ok (v, s')) :
    ((skipWsFrom s.rest s.line).rest.head? ≠ some '\x7b' ∧
      ScalarRead env (skipWsFrom s.rest s.line) s' v) ∨
    ((skipWsFrom s.rest s.line).rest.head? = some '\x7b' ∧
      ∃ block, parseBlock p (skipWsFrom s.rest s.line) = .ok (block, s') ∧ v = .block block) := by
  simp only [parseValue, bind_apply, skipWs, remaining, Except.bind] at h
  generalize skipWsFrom s.rest s.line = s₁ at *
  obtain ⟨rest, line⟩ := s₁
  cases rest with
  | nil => cases h
  | cons c cs =>
    simp only [List.head?_cons, Option.some.injEq, ne_eq] at h ⊢
    split_ifs at h with hquote hnumber hbool hsecret hblock
    · obtain ⟨text, s₂, htext, hpure⟩ := exists_of_bind_ok h
      cases hpure
      exact Or.inl ⟨by simp [hquote], .string htext⟩
    · refine Or.inl ⟨?_, .number h⟩
      rintro rfl
      exact absurd hnumber (by decide)
    · refine Or.inl ⟨?_, .bool h⟩
      rintro rfl
      exact absurd hbool (by decide)
    · exact Or.inl ⟨by simp [hsecret.1], .secret hsecret.2 h⟩
    · obtain ⟨block, s₂, hblockRead, hpure⟩ := exists_of_bind_ok h
      cases hpure
      exact Or.inr ⟨hblock, block, hblockRead, rfl⟩
    · cases h

/-- The parser of the properties does not matter for a value that is no block. -/
theorem parseValue_congr (h : (skipWsFrom s.rest s.line).rest.head? ≠ some '\x7b') :
    parseValue env p s = parseValue env p' s := by
  simp only [parseValue, bind_apply, skipWs, remaining, Except.bind]
  generalize skipWsFrom s.rest s.line = s₁ at *
  obtain ⟨rest, line⟩ := s₁
  cases rest with
  | nil => rfl
  | cons c cs =>
    have hc : c ≠ '\x7b' := fun heq => h (by rw [heq]; rfl)
    simp only [List.head?_cons, if_neg hc]

/-- The text of a number stands at the front, and is no newline. -/
theorem numberText_isPrefix (cs : List Char) : numberText cs <+: cs := by
  rw [numberText]
  generalize hsign : (if cs.head? = some '-' then ['-'] else []) = sign
  have hstart : sign <+: cs := by
    rw [← hsign]
    split_ifs with h
    · obtain ⟨c, hc⟩ := List.head?_eq_some_iff.mp h
      exact ⟨c, hc.symm⟩
    · exact List.nil_prefix
  obtain ⟨rest, rfl⟩ := hstart
  simp only [List.drop_left]
  have hdigits : sign ++ rest.takeWhile Char.isDigit <+: sign ++ rest :=
    (List.prefix_append_right_inj sign).mpr (List.takeWhile_prefix _)
  generalize rest.takeWhile Char.isDigit = digits at *
  obtain ⟨behind, hbehind⟩ := hdigits
  rw [← hbehind, List.drop_left]
  split_ifs with hdot
  · obtain ⟨fraction, rfl⟩ := List.head?_eq_some_iff.mp hdot
    refine (List.prefix_append_right_inj _).mpr ?_
    exact (List.cons_prefix_cons).mpr ⟨rfl, List.takeWhile_prefix _⟩
  · exact List.prefix_append _ _

theorem newline_notMem_numberText (cs : List Char) : '\n' ∉ numberText cs := by
  have hdigits : ∀ l : List Char, '\n' ∉ l.takeWhile Char.isDigit := fun l h =>
    absurd (List.mem_takeWhile_imp h) (by decide)
  rw [numberText]
  split_ifs <;> simp [hdigits]

/-- The words that the scanner goes over have no newlines. -/
theorem newline_notMem_take {word cs : List Char} (h : word <+: cs) (hnot : '\n' ∉ word) :
    '\n' ∉ cs.take word.length := by
  rwa [← List.prefix_iff_eq_take.mp h]

theorem isScalar_of_scalarRead (h : ScalarRead env s s' v) : v.isScalar = true := by
  cases h with
  | string h => rfl
  | number h =>
    obtain ⟨rest, s₁, -, h⟩ := exists_of_bind_ok h
    obtain ⟨-, s₂, -, h⟩ := exists_of_bind_ok h
    cases hfloat : env.parseFloat (String.ofList (numberText rest)) with
    | none =>
      rw [hfloat] at h
      cases h
    | some n =>
      rw [hfloat] at h
      cases h
      rfl
  | bool h =>
    obtain ⟨rest, s₁, -, h⟩ := exists_of_bind_ok h
    split_ifs at h
    · cases h
      rfl
    · cases h
      rfl
    · cases h
  | secret hstart h =>
    obtain ⟨-, s₁, -, h⟩ := exists_of_bind_ok h
    obtain ⟨-, s₂, -, h⟩ := exists_of_bind_ok h
    obtain ⟨name, s₃, -, h⟩ := exists_of_bind_ok h
    obtain ⟨-, s₄, -, h⟩ := exists_of_bind_ok h
    obtain ⟨-, s₅, -, h⟩ := exists_of_bind_ok h
    cases h
    rfl

theorem trueLine_of_scalarRead (hs : TrueLine source s) (h : ScalarRead env s s' v) :
    TrueLine source s' := by
  cases h with
  | string h => exact (keeps_parseString s _ s' hs h).1
  | number h =>
    obtain ⟨rest, s₁, hrest, h⟩ := exists_of_bind_ok h
    cases hrest
    obtain ⟨u, s₂, hskip, h⟩ := exists_of_bind_ok h
    have hs₂ : TrueLine source s₂ := by
      refine keeps_skipChars hs ?_ hskip
      rw [← List.prefix_iff_eq_take.mp (numberText_isPrefix s.rest)]
      exact newline_notMem_numberText s.rest
    cases hfloat : env.parseFloat (String.ofList (numberText s.rest)) with
    | none =>
      rw [hfloat] at h
      cases h
    | some n =>
      rw [hfloat] at h
      cases h
      exact hs₂
  | bool h =>
    obtain ⟨rest, s₁, hrest, h⟩ := exists_of_bind_ok h
    cases hrest
    split_ifs at h with htrue hfalse
    · obtain ⟨u, s₂, hskip, h⟩ := exists_of_bind_ok h
      cases h
      have hword : "true".toList <+: s.rest := by simpa using (of_decide_eq_true htrue).1
      exact keeps_skipChars hs (newline_notMem_take hword (by decide)) hskip
    · obtain ⟨u, s₂, hskip, h⟩ := exists_of_bind_ok h
      cases h
      have hword : "false".toList <+: s.rest := by simpa using (of_decide_eq_true hfalse).1
      exact keeps_skipChars hs (newline_notMem_take hword (by decide)) hskip
    · cases h
  | secret hstart h =>
    obtain ⟨u, s₁, hskip, h⟩ := exists_of_bind_ok h
    have hs₁ : TrueLine source s₁ :=
      keeps_skipChars hs (newline_notMem_take hstart (by decide)) hskip
    have hrest : Keeps (TrueLine source) (do
        skipWs
        let name ← parseString
        skipWs
        expectChar ')'
        return (.secret name : PropertyValue F)) :=
      keeps_skipWs.seq fun _ => keeps_parseString.seq fun _ => keeps_skipWs.seq fun _ =>
        (keeps_expectChar _).seq fun _ => simulates_pure rfl
    exact (hrest s₁ v s' hs₁ h).1

/-! ## The parser reads the entries -/

/-- The properties are those of the entries, behind the given ones. -/
def MergesTo (source : List Char) (props props' : Properties F) (entries : List (SurfaceEntry F)) :
    Prop :=
  mergeEntries (lineAt source) entries props = .ok props'

/-- The value is taken up as the entry is. -/
def TakenAs (source : List Char) (key : String) (start : List Char) (v : PropertyValue F)
    (entry : SurfaceEntry F) : Prop :=
  ∀ props, entry.mergeInto (lineAt source) props = .ok (assign props key v (lineAt source start))

theorem expectChar_skipWs (expected : Char)
    (h : (skipWsFrom s.rest s.line).rest.head? = some '\x7b') :
    expectChar expected s = expectChar expected (skipWsFrom s.rest s.line) := by
  simp only [expectChar, bind_apply, skipWs, Except.bind]
  generalize skipWsFrom s.rest s.line = s₁ at *
  obtain ⟨rest, line⟩ := s₁
  cases rest with
  | nil => cases h
  | cons c cs =>
    cases h
    rfl

theorem braces_skipWs {α : Type} {q : SurfaceParser α}
    (h : (skipWsFrom s.rest s.line).rest.head? = some '\x7b') :
    braces q s = braces q (skipWsFrom s.rest s.line) := by
  rw [braces, bind_apply, bind_apply, expectChar_skipWs _ h]

variable {q : SurfaceParser (List (SurfaceEntry F))}

theorem simulates_braces (hp : Simulates (TrueLine source) (MergesTo source []) p q) :
    Simulates (TrueLine source) (MergesTo source []) (parseBlock p) (braces q) :=
  (keeps_expectChar _).bind fun _ _ _ => hp.bind fun _ _ hrel =>
    (keeps_expectChar _).bind fun _ _ _ => simulates_pure hrel

theorem simulates_value (hp : Simulates (TrueLine source) (MergesTo source []) p q) (key : String)
    (start : List Char) :
    Simulates (TrueLine source) (TakenAs source key start) (parseValue env p)
      (parseAssigned env key start q) := by
  intro s v s' hs h
  have hws := (keeps_skipWs s () _ hs rfl).1
  rcases parseValue_cases h with ⟨hhead, hscalar⟩ | ⟨hhead, block, hblock, rfl⟩
  · refine ⟨trueLine_of_scalarRead hws hscalar, .scalar key start ⟨v, isScalar_of_scalarRead hscalar⟩,
      ?_, fun _ => rfl⟩
    have hread : parseScalar env s = .ok (⟨v, isScalar_of_scalarRead hscalar⟩, s') := by
      rw [parseScalar, bind_of_ok ((parseValue_congr hhead).symm.trans h),
        dif_pos (isScalar_of_scalarRead hscalar)]
      rfl
    have hnext : nextChar s = .ok ((skipWsFrom s.rest s.line).rest.head?, s) := rfl
    rw [parseAssigned, bind_of_ok hnext, if_neg hhead, bind_of_ok hread]
    rfl
  · obtain ⟨hs', entries, hbraces, hmerge⟩ := simulates_braces hp _ block s' hws hblock
    refine ⟨hs', .assigned key start entries, ?_, fun props => ?_⟩
    · have hnext : nextChar s = .ok ((skipWsFrom s.rest s.line).rest.head?, s) := rfl
      rw [parseAssigned, bind_of_ok hnext, if_pos hhead, bind_of_ok ((braces_skipWs hhead).trans hbraces)]
      rfl
    · rw [SurfaceEntry.mergeInto, hmerge]

theorem keeps_skipSemicolon : Keeps (TrueLine source) skipSemicolon := by
  refine keeps_skipWs.seq fun _ => keeps_peek.seq fun next => ?_
  split_ifs
  · exact keeps_advance
  · exact simulates_pure rfl

theorem simulates_currentLine : Simulates (TrueLine source)
    (fun line start => line = lineAt source start) currentLine remaining := by
  rintro s line s' hs h
  cases h
  exact ⟨hs, s.rest, rfl, hs.line⟩

theorem mergesTo_cons {props props₁ props' : Properties F} {entry : SurfaceEntry F}
    {entries : List (SurfaceEntry F)} (hentry : entry.mergeInto (lineAt source) props = .ok props₁)
    (h : MergesTo source props₁ props' entries) : MergesTo source props props' (entry :: entries) := by
  rw [MergesTo, mergeEntries, hentry]
  exact h

/-- **The properties that the parser returns** are put together from the entries of the text. -/
theorem simulates_parseProperties (fuel : ℕ) (props : Properties F) :
    Simulates (TrueLine source) (MergesTo source props) (parseProperties env fuel props)
      (parseEntries env fuel) := by
  induction fuel generalizing props with
  | zero => exact simulates_throw _ _
  | succ fuel ih =>
    refine keeps_skipWs.bind fun _ _ _ => keeps_peek.bind ?_
    rintro next _ rfl
    split_ifs with hend
    · exact simulates_pure rfl
    · refine simulates_currentLine.bind fun line start hline => keeps_parseIdent.bind ?_
      rintro key _ rfl
      refine keeps_skipWs.bind fun _ _ _ => keeps_peek.bind ?_
      rintro sign _ rfl
      subst hline
      split_ifs with hassign hblock
      · refine keeps_advance.bind fun _ _ _ => (simulates_value (ih []) key start).bind ?_
        intro v entry htaken
        refine keeps_skipSemicolon.bind fun _ _ _ => ?_
        exact (ih _).then_pure fun props' entries hrest => mergesTo_cons (htaken props) hrest
      · refine (simulates_braces (ih [])).bind fun block entries hblockMerge => ?_
        split
        · next props₁ hadd =>
          refine (ih props₁).then_pure fun props' rest hrest => mergesTo_cons ?_ hrest
          rw [SurfaceEntry.mergeInto, show mergeEntries _ entries [] = _ from hblockMerge]
          exact hadd
        · exact simulates_throw _ _
      · exact simulates_failHere _ _

/-! ## Whole files -/

theorem simulates_properties : Simulates (TrueLine source) (MergesTo source []) (properties env)
    (entriesHere env) :=
  fun s props s' hs h => simulates_parseProperties (s.rest.length + 1) [] s props s' hs h

/-- A resource is read with its entries; the line is that of its first token. -/
theorem simulates_parseResource : Simulates (TrueLine source)
    (fun resource entry => MergedFrom (lineAt source) entry resource) (parseResource env)
    (parseResourceEntry env) := by
  refine simulates_currentLine.bind fun line start hline => keeps_parseIdent.bind ?_
  rintro resourceType _ rfl
  refine keeps_parseString.bind ?_
  rintro name _ rfl
  refine (keeps_expectChar _).bind fun _ _ _ => simulates_properties.bind fun props entries hmerge => ?_
  exact (keeps_expectChar _).bind fun _ _ _ => simulates_pure ⟨rfl, rfl, hline, hmerge⟩

theorem simulates_parseResources (fuel : ℕ) : Simulates (TrueLine source)
    (fun resources entries => List.Forall₂ (MergedFrom (lineAt source)) entries resources)
    (parseResources env fuel) (parseResourceEntries env fuel) := by
  induction fuel with
  | zero => exact simulates_throw _ _
  | succ fuel ih =>
    refine keeps_skipWs.bind fun _ _ _ => keeps_peek.bind ?_
    rintro next _ rfl
    split_ifs
    · exact simulates_pure .nil
    · refine simulates_parseResource.bind fun resource entry hmerged => ?_
      exact ih.bind fun resources entries hrest => simulates_pure (.cons hmerged hrest)

end Scanner

/-- **A parsed file** is put together from the entries of its source, and its lines are those of the first
tokens. -/
theorem merge_of_parse {env : SurfaceEnv F} {source path : String} {file : ParsedFile F}
    (h : parse env source path = .ok file) : ∃ entries, entriesOf env source = .ok entries ∧
      List.Forall₂ (MergedFrom (lineAt source.toList)) entries file.resources := by
  rw [parse] at h
  cases hread : parseResources env (source.toList.length + 1) ⟨source.toList, 1⟩ with
  | error e =>
    rw [hread] at h
    cases h
  | ok r =>
    rw [hread] at h
    cases h
    have hstart : TrueLine source.toList ⟨source.toList, 1⟩ :=
      ⟨List.suffix_rfl, by rw [lineAt, Nat.sub_self]⟩
    obtain ⟨-, entries, hentries, hmerged⟩ := simulates_parseResources _ _ _ _ hstart hread
    exact ⟨entries, by rw [entriesOf, hentries]; rfl, hmerged⟩

end Picloud
