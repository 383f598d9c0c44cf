import Picloud.Compiler.Builder
import Picloud.Compiler.WellFormed
import Mathlib.Algebra.Order.BigOperators.Group.List

/-!
# What the builder renders is parsed

The text of a builder is read back, property by property: a line is one round of the parser's loop, and
a block one round with the rounds for its properties inside. The blocks of pairs are collected, while the
second item of a list is passed over, so that a builder is read back whole exactly when none of its lists
has two items (`parsesBack_iff`).
-/

namespace Picloud

open Lib ParserOf

variable {F : Type} {env : SurfaceEnv F}

/-! ## What a builder stands for -/

/-- The block of a pair. -/
def pairBlock (pair : String × String) : Properties F :=
  [⟨"key", .string pair.1, 0⟩, ⟨"value", .string pair.2, 0⟩]

/-- One block, or several. -/
def blockValue : List (Properties F) → PropertyValue F
  | [block] => .block block
  | blocks => .blocks blocks

mutual

/-- The properties that a value of the builder stands for, with the items of a list that are kept; the
lines are left out. -/
def BuilderValue.contents (keep : List String → List String) (key : String) :
    BuilderValue → Properties F
  | .single value => [⟨key, .string value, 0⟩]
  | .secret name => [⟨key, .secret name, 0⟩]
  | .list items => (keep items).map fun item => ⟨key, .string item, 0⟩
  | .pairs pairs => if pairs.isEmpty then [] else [⟨key, blockValue (pairs.map pairBlock), 0⟩]
  | .block props => [⟨key, .block ((sortedEntries (contentsEach keep props)).flatMap Prod.snd), 0⟩]

/-- The properties that each value stands for. -/
def contentsEach (keep : List String → List String) :
    List (String × BuilderValue) → List (String × Properties F)
  | [] => []
  | (key, value) :: props => (key, value.contents keep key) :: contentsEach keep props

end

/-- The properties that the values stand for, in the order of their keys. -/
def contentsOf (keep : List String → List String) (props : List (String × BuilderValue)) :
    Properties F :=
  (sortedEntries (contentsEach keep props)).flatMap Prod.snd

mutual

/-- A value without the lines. -/
def PropertyValue.withoutLines : PropertyValue F → PropertyValue F
  | .string text => .string text
  | .number n => .number n
  | .bool b => .bool b
  | .secret name => .secret name
  | .block props => .block (withoutLinesOf props)
  | .blocks blocks => .blocks (withoutLinesOfBlocks blocks)

/-- Properties without the lines. -/
def withoutLinesOf : Properties F → Properties F
  | [] => []
  | ⟨key, value, _⟩ :: props => ⟨key, value.withoutLines, 0⟩ :: withoutLinesOf props

/-- Blocks without the lines. -/
def withoutLinesOfBlocks : List (Properties F) → List (Properties F)
  | [] => []
  | props :: blocks => withoutLinesOf props :: withoutLinesOfBlocks blocks

end

/-- A resource without the lines. -/
def ResourceDecl.withoutLines (resource : ResourceDecl F) : ResourceDecl F :=
  { resource with properties := withoutLinesOf resource.properties, line := 0 }

/-- The text of the builder is parsed as the one resource that it stands for. -/
def ParsesBack (env : SurfaceEnv F) (b : ResourceBuilder) (name : String) : Prop :=
  ∃ text, b.render = .ok text ∧ ∀ path, ∃ file, parse env text path = .ok file ∧
    file.resources.map ResourceDecl.withoutLines =
      [⟨b.resourceType, name, contentsOf id b.properties, 0⟩]

/-- No quotes in the values, and identifiers as keys. -/
inductive BuilderValue.Plain : BuilderValue → Prop
  | single {value : String} (h : Unquoted value) : Plain (.single value)
  | secret {name : String} (h : Unquoted name) : Plain (.secret name)
  | list {items : List String} (h : ∀ item ∈ items, Unquoted item) : Plain (.list items)
  | pairs {pairs : List (String × String)} (h : ∀ pair ∈ pairs, Unquoted pair.1 ∧ Unquoted pair.2) :
      Plain (.pairs pairs)
  | block {props : List (String × BuilderValue)} (hkeys : ∀ e ∈ props, IsIdent e.1)
      (h : ∀ e ∈ props, Plain e.2) : Plain (.block props)

/-- No list has two items. -/
inductive BuilderValue.ListsShort : BuilderValue → Prop
  | single (value : String) : ListsShort (.single value)
  | secret (name : String) : ListsShort (.secret name)
  | list {items : List String} (h : items.length ≤ 1) : ListsShort (.list items)
  | pairs (pairs : List (String × String)) : ListsShort (.pairs pairs)
  | block {props : List (String × BuilderValue)} (h : ∀ e ∈ props, ListsShort e.2) :
      ListsShort (.block props)

/-! ## Characters -/

/-- A character at which the scanner stops. -/
def StopsAt (c : Char) : Prop := c ≠ '\n' ∧ c ≠ ' ' ∧ c ≠ '\t' ∧ c ≠ '\r' ∧ c ≠ '/'

instance (c : Char) : Decidable (StopsAt c) :=
  inferInstanceAs (Decidable (c ≠ '\n' ∧ c ≠ ' ' ∧ c ≠ '\t' ∧ c ≠ '\r' ∧ c ≠ '/'))

variable {c : Char} {key name : String}

theorem skipWsFrom_stop (h : StopsAt c) (cs : List Char) (line : ℕ) :
    skipWsFrom (c :: cs) line = ⟨c :: cs, line⟩ := by
  rw [skipWsFrom, if_neg h.1, if_neg, if_neg]
  · exact fun hslash => h.2.2.2.2 hslash.1
  · rintro (rfl | rfl | rfl)
    · exact h.2.1 rfl
    · exact h.2.2.1 rfl
    · exact h.2.2.2.1 rfl

theorem skipWsFrom_newline (cs : List Char) (line : ℕ) :
    skipWsFrom ('\n' :: cs) line = skipWsFrom cs (line + 1) := by
  rw [skipWsFrom, if_pos rfl]

theorem skipWsFrom_space (cs : List Char) (line : ℕ) :
    skipWsFrom (' ' :: cs) line = skipWsFrom cs line := by
  rw [skipWsFrom, if_neg (by decide), if_pos (Or.inl rfl)]

theorem skipWsFrom_pad (indent : ℕ) (cs : List Char) (line : ℕ) :
    skipWsFrom ((pad indent).toList ++ cs) line = skipWsFrom cs line := by
  rw [pad, String.toList_ofList]
  induction 2 * indent with
  | zero => rfl
  | succ k ih => rw [List.replicate_succ, List.cons_append, skipWsFrom_space, ih]

mutual

/-- The scanner stays where it stopped. -/
theorem skipWsFrom_idem (cs : List Char) (line : ℕ) :
    skipWsFrom (skipWsFrom cs line).rest (skipWsFrom cs line).line = skipWsFrom cs line := by
  match cs with
  | [] => simp [skipWsFrom]
  | c :: cs =>
    have hws := fun line => skipWsFrom_idem cs line
    have hcomment := skipCommentFrom_idem cs line
    by_cases hnewline : c = '\n'
    · rw [skipWsFrom, if_pos hnewline]
      exact hws _
    · by_cases hspace : c = ' ' ∨ c = '\t' ∨ c = '\r'
      · rw [skipWsFrom, if_neg hnewline, if_pos hspace]
        exact hws _
      · by_cases hslash : c = '/' ∧ cs.head? = some '/'
        · rw [skipWsFrom, if_neg hnewline, if_neg hspace, if_pos hslash]
          exact hcomment
        · have hstop : skipWsFrom (c :: cs) line = ⟨c :: cs, line⟩ := by
            rw [skipWsFrom, if_neg hnewline, if_neg hspace, if_neg hslash]
          rw [hstop, hstop]

theorem skipCommentFrom_idem (cs : List Char) (line : ℕ) :
    skipWsFrom (skipCommentFrom cs line).rest (skipCommentFrom cs line).line =
      skipCommentFrom cs line := by
  match cs with
  | [] => simp [skipCommentFrom, skipWsFrom]
  | c :: cs =>
    rw [skipCommentFrom]
    split_ifs
    · exact skipWsFrom_idem cs _
    · exact skipCommentFrom_idem cs line

end

theorem stopsAt_of_isIdentChar (h : isIdentChar c = true) : StopsAt c := by
  refine ⟨?_, ?_, ?_, ?_, ?_⟩ <;> rintro rfl <;> exact absurd h (by decide)

/-- What an identifier begins with. -/
theorem IsIdent.exists_cons (h : IsIdent key) :
    ∃ c cs, key.toList = c :: cs ∧ c.isAlpha = true := by
  obtain ⟨hfirst, -⟩ := h
  cases hkey : key.toList with
  | nil =>
    rw [hkey] at hfirst
    cases hfirst
  | cons c cs =>
    rw [hkey] at hfirst
    exact ⟨c, cs, rfl, hfirst⟩

/-- The scanner stops at an identifier. -/
theorem skipWsFrom_ident (h : IsIdent key) (cs : List Char) (line : ℕ) :
    skipWsFrom (key.toList ++ cs) line = ⟨key.toList ++ cs, line⟩ := by
  obtain ⟨c, rest, hkey, -⟩ := h.exists_cons
  have hc : c ∈ key.toList := hkey ▸ List.mem_cons_self
  rw [hkey, List.cons_append]
  exact skipWsFrom_stop (stopsAt_of_isIdentChar (h.2 c hc)) _ _

/-- An identifier is read up to a character that does not belong to one. -/
theorem parseIdent_ident (h : IsIdent key) {d : Char} (hd : isIdentChar d = false) (cs : List Char)
    (line : ℕ) :
    parseIdent ⟨key.toList ++ d :: cs, line⟩ = .ok (key, ⟨d :: cs, line⟩) := by
  obtain ⟨c, rest, hkey, hc⟩ := h.exists_cons
  refine parseIdent_eq_ok.mpr ⟨c, rest ++ d :: cs, line, ?_, hc, ?_, ?_⟩
  · rw [skipWsFrom_ident h, hkey, List.cons_append]
  · rw [← List.cons_append, ← hkey, List.takeWhile_append_of_pos h.2]
    simp [hd]
  · rw [← List.cons_append, ← hkey, List.dropWhile_append_of_pos h.2, List.dropWhile_cons_of_neg]
    simp [hd]

/-- What the scanner does at a character where it stops. -/
theorem skipWs_stop (h : StopsAt c) (cs : List Char) (line : ℕ) :
    skipWs ⟨c :: cs, line⟩ = .ok ((), ⟨c :: cs, line⟩) := by
  rw [skipWs, skipWsFrom_stop h]

theorem expectChar_stop (h : StopsAt c) (cs : List Char) (line : ℕ) :
    expectChar c ⟨c :: cs, line⟩ = .ok ((), ⟨cs, line⟩) :=
  expectChar_eq_ok.mpr ⟨cs, line, skipWsFrom_stop h cs line, by rw [if_neg h.1]⟩

theorem parseString_quoted {text : String} (h : Unquoted text) (cs : List Char) (line : ℕ) :
    parseString ⟨'"' :: (text.toList ++ '"' :: cs), line⟩ =
      .ok (text, ⟨cs, line + text.toList.count '\n'⟩) := by
  rw [parseString, bind_of_ok (skipWs_stop (by decide) _ line),
    bind_of_ok (expectChar_stop (by decide) _ line)]
  exact scanString_eq_ok.mpr ⟨cs, rfl, h, rfl⟩

/-! ## One round of the loop -/

section Round

variable {n : ℕ} {acc : Properties F} {s : ParserState} {key : String} {cs tail : List Char} {line : ℕ}

/-- What a round does up to the sign behind the key. -/
theorem parseProperties_key (hkey : IsIdent key)
    (hskip : skipWsFrom s.rest s.line = ⟨key.toList ++ ' ' :: cs, line⟩)
    {sign : Char} (hcs : skipWsFrom cs line = ⟨sign :: tail, line⟩) :
    parseProperties env (n + 1) acc s = (if some sign = some '=' then do
        advance
        let value ← parseValue env (parseProperties env n [])
        skipSemicolon
        parseProperties env n (assign acc key value line)
      else if some sign = some '\x7b' then do
        let block ← parseBlock (parseProperties env n [])
        match addBlock acc key block line with
        | .ok props => parseProperties env n props
        | .error e => throw e
      else
        failHere ("expected '=' or '\x7b' after property name '" ++ key ++ "', found " ++
          ((some sign).map fun c => "Some(" ++ env.debugChar c ++ ")").getD "None"))
        ⟨sign :: tail, line⟩ := by
  obtain ⟨c, rest, hcons, hc⟩ := hkey.exists_cons
  have hstart : skipWs s = .ok ((), ⟨key.toList ++ ' ' :: cs, line⟩) := by rw [skipWs, hskip]
  have hpeek : peek ⟨key.toList ++ ' ' :: cs, line⟩ = .ok (some c, ⟨key.toList ++ ' ' :: cs, line⟩) := by
    rw [hcons]
    rfl
  have hnext : ¬ (some c = some '\x7d' ∨ some c = none) := by
    rintro (heq | heq)
    · cases Option.some.inj heq
      exact absurd hc (by decide)
    · cases heq
  have hspace : skipWs ⟨' ' :: cs, line⟩ = .ok ((), ⟨sign :: tail, line⟩) := by
    rw [skipWs, skipWsFrom_space, hcs]
  rw [parseProperties, bind_of_ok hstart, bind_of_ok hpeek, if_neg hnext, bind_of_ok (p := currentLine) rfl,
    bind_of_ok (parseIdent_ident hkey (by decide) cs line), bind_of_ok hspace, bind_of_ok (p := peek) rfl]
  rfl

/-- A key and an equals sign. -/
theorem parseProperties_assign (hkey : IsIdent key)
    (hskip : skipWsFrom s.rest s.line = ⟨key.toList ++ ' ' :: cs, line⟩)
    (hcs : skipWsFrom cs line = ⟨'=' :: tail, line⟩) :
    parseProperties env (n + 1) acc s = (do
      let value ← parseValue env (parseProperties env n [])
      skipSemicolon
      parseProperties env n (assign acc key value line)) ⟨tail, line⟩ := by
  rw [parseProperties_key hkey hskip hcs, if_pos rfl, bind_of_ok (p := advance) rfl]
  rfl

/-- A key and a brace. -/
theorem parseProperties_block (hkey : IsIdent key)
    (hskip : skipWsFrom s.rest s.line = ⟨key.toList ++ ' ' :: cs, line⟩)
    (hcs : skipWsFrom cs line = ⟨'\x7b' :: tail, line⟩) {block props : Properties F} {s' : ParserState}
    (hblock : parseBlock (parseProperties env n []) ⟨'\x7b' :: tail, line⟩ = .ok (block, s'))
    (hadd : addBlock acc key block line = .ok props) :
    parseProperties env (n + 1) acc s = parseProperties env n props s' := by
  rw [parseProperties_key hkey hskip hcs, if_neg (by decide), if_pos rfl, bind_of_ok hblock, hadd]

/-- The end of a block. -/
theorem parseProperties_end (hskip : skipWsFrom s.rest s.line = ⟨'\x7d' :: cs, line⟩) :
    parseProperties env (n + 1) acc s = .ok (acc, ⟨'\x7d' :: cs, line⟩) := by
  have hstart : skipWs s = .ok ((), ⟨'\x7d' :: cs, line⟩) := by rw [skipWs, hskip]
  have hpeek : peek ⟨'\x7d' :: cs, line⟩ = .ok (some '\x7d', ⟨'\x7d' :: cs, line⟩) := rfl
  rw [parseProperties, bind_of_ok hstart, bind_of_ok hpeek, if_pos (Or.inl rfl)]
  rfl

/-- Spaces before a round do not matter. -/
theorem parseProperties_skip (acc : Properties F) (n : ℕ) (rest : List Char) (line : ℕ) :
    parseProperties env n acc (skipWsFrom rest line) = parseProperties env n acc ⟨rest, line⟩ := by
  cases n with
  | zero => rfl
  | succ n =>
    have hskip : skipWs ⟨rest, line⟩ = .ok ((), skipWsFrom rest line) := rfl
    have hagain : skipWs (skipWsFrom rest line) = .ok ((), skipWsFrom rest line) := by
      rw [skipWs, skipWsFrom_idem]
    rw [parseProperties, bind_of_ok hskip, bind_of_ok hagain]

variable {p : SurfaceParser (Properties F)}

/-- A value is told by the character it begins with. -/
theorem parseValue_of_skipWs {c : Char} (hskip : skipWs s = .ok ((), ⟨c :: cs, line⟩)) :
    parseValue env p s = (if c = '"' then return .string (← parseString)
      else if c.isDigit ∨ c = '-' then parseNumber env
      else if c = 't' ∨ c = 'f' then parseBool
      else if c = 's' ∧ "secret(".toList <+: c :: cs then parseSecret
      else if c = '\x7b' then return .block (← parseBlock p)
      else failHere ("unexpected character '" ++ c.toString ++ "'")) ⟨c :: cs, line⟩ := by
  rw [parseValue, bind_of_ok hskip, bind_of_ok (p := remaining) rfl]
  rfl

theorem parseValue_string {p : SurfaceParser (Properties F)} {text : String} (h : Unquoted text)
    (cs : List Char) (line : ℕ) :
    parseValue env p ⟨' ' :: '"' :: (text.toList ++ '"' :: cs), line⟩ =
      .ok (.string text, ⟨cs, line + text.toList.count '\n'⟩) := by
  have hspace : skipWs ⟨' ' :: '"' :: (text.toList ++ '"' :: cs), line⟩ =
      .ok ((), ⟨'"' :: (text.toList ++ '"' :: cs), line⟩) := by
    rw [skipWs, skipWsFrom_space, skipWsFrom_stop (by decide)]
  rw [parseValue_of_skipWs hspace, if_pos rfl, bind_of_ok (parseString_quoted h cs line)]
  rfl

theorem parseValue_secret {p : SurfaceParser (Properties F)} {name : String} (h : Unquoted name)
    (cs : List Char) (line : ℕ) :
    parseValue env p ⟨' ' :: ("secret(".toList ++ '"' :: (name.toList ++ '"' :: ')' :: cs)), line⟩ =
      .ok (.secret name, ⟨cs, line + name.toList.count '\n'⟩) := by
  have hspace : skipWs ⟨' ' :: ("secret(".toList ++ '"' :: (name.toList ++ '"' :: ')' :: cs)), line⟩ =
      .ok ((), ⟨'s' :: ("ecret(".toList ++ '"' :: (name.toList ++ '"' :: ')' :: cs)), line⟩) := by
    rw [skipWs, skipWsFrom_space]
    exact congrArg (fun s => Except.ok ((), s)) (skipWsFrom_stop (by decide) _ _)
  have hword : "secret(".toList <+:
      's' :: ("ecret(".toList ++ '"' :: (name.toList ++ '"' :: ')' :: cs)) := List.prefix_append _ _
  have hdrop : skipChars 7 ⟨'s' :: ("ecret(".toList ++ '"' :: (name.toList ++ '"' :: ')' :: cs)), line⟩ =
      .ok ((), ⟨'"' :: (name.toList ++ '"' :: ')' :: cs), line⟩) := rfl
  rw [parseValue_of_skipWs hspace, if_neg (by decide), if_neg (by decide), if_neg (by decide),
    if_pos ⟨rfl, hword⟩, parseSecret, bind_of_ok hdrop, bind_of_ok (skipWs_stop (by decide) _ _),
    bind_of_ok (parseString_quoted h _ _), bind_of_ok (skipWs_stop (by decide) _ _),
    bind_of_ok (expectChar_stop (by decide) _ _)]
  rfl

/-- A semicolon is skipped. -/
theorem skipSemicolon_semicolon (cs : List Char) (line : ℕ) :
    skipSemicolon ⟨';' :: cs, line⟩ = .ok ((), ⟨cs, line⟩) := by
  rw [skipSemicolon, bind_of_ok (skipWs_stop (by decide) _ _), bind_of_ok (p := peek) rfl]
  rfl

/-- No semicolon comes next. -/
def NoSemicolon (rest : List Char) : Prop := ∀ line, (skipWsFrom rest line).rest.head? ≠ some ';'

theorem skipSemicolon_of_noSemicolon {rest : List Char} (h : NoSemicolon rest) (line : ℕ) :
    skipSemicolon ⟨rest, line⟩ = .ok ((), skipWsFrom rest line) := by
  have hpeek : peek (skipWsFrom rest line) =
      .ok ((skipWsFrom rest line).rest.head?, skipWsFrom rest line) := rfl
  rw [skipSemicolon, bind_of_ok (p := skipWs) rfl, bind_of_ok hpeek, if_neg (h line)]
  rfl

end Round

/-! ## Reading texts -/

/-- With enough fuel, the parser of properties has the result. -/
def Yields (env : SurfaceEnv F) (acc : Properties F) (s : ParserState)
    (r : Except String (Properties F × ParserState)) : Prop :=
  ∃ bound, ∀ n, bound ≤ n → parseProperties env n acc s = r

section Yields

variable {acc acc' : Properties F} {s s' : ParserState} {r : Except String (Properties F × ParserState)}

/-- A round of the loop, with enough fuel for what is nested in it. -/
theorem Yields.round (h : Yields env acc' s' r) (bound : ℕ)
    (hround : ∀ n, bound ≤ n → parseProperties env (n + 1) acc s = parseProperties env n acc' s') :
    Yields env acc s r := by
  obtain ⟨bound', hbound'⟩ := h
  refine ⟨max bound bound' + 1, fun n hn => ?_⟩
  cases n with
  | zero => omega
  | succ n =>
    rw [hround n (by omega)]
    exact hbound' n (by omega)

theorem Yields.newline {rest : List Char} {line : ℕ} (h : Yields env acc ⟨rest, line + 1⟩ r) :
    Yields env acc ⟨'\n' :: rest, line⟩ r := by
  obtain ⟨bound, hbound⟩ := h
  refine ⟨bound, fun n hn => ?_⟩
  rw [← parseProperties_skip, skipWsFrom_newline, parseProperties_skip]
  exact hbound n hn

theorem NoSemicolon.newline {rest : List Char} (h : NoSemicolon rest) : NoSemicolon ('\n' :: rest) :=
  fun line => by
    rw [skipWsFrom_newline]
    exact h (line + 1)

end Yields

/-- The characters of a line. -/
def lineText (line : String) : List Char := line.toList ++ ['\n']

section Lines

variable {acc props : Properties F} {key : String} {rest : List Char} {line : ℕ}
  {r : Except String (Properties F × ParserState)}

/-- A line that begins with a key. -/
theorem skipWsFrom_keyLine (hkey : IsIdent key) (indent : ℕ) (cs : List Char) (line : ℕ) :
    skipWsFrom ((pad indent).toList ++ (key.toList ++ cs)) line = ⟨key.toList ++ cs, line⟩ := by
  rw [skipWsFrom_pad, skipWsFrom_ident hkey]

theorem noSemicolon_keyLine (hkey : IsIdent key) (indent : ℕ) (cs : List Char) :
    NoSemicolon ((pad indent).toList ++ (key.toList ++ cs)) := by
  intro line
  obtain ⟨c, tail, hcons, hc⟩ := hkey.exists_cons
  rw [skipWsFrom_keyLine hkey, hcons]
  intro heq
  cases Option.some.inj heq
  exact absurd hc (by decide)

theorem lineText_valueLine (indent : ℕ) (key value : String) (rest : List Char) :
    lineText (valueLine indent key value) ++ rest = (pad indent).toList ++ (key.toList ++
      ' ' :: ' ' :: '=' :: ' ' :: '"' :: (value.toList ++ '"' :: '\n' :: rest)) := by
  simp [lineText, valueLine]

/-- The line of a value is one assignment. -/
theorem yields_valueLine (hkey : IsIdent key) {value : String} (hvalue : Unquoted value) (indent : ℕ)
    (hrest : NoSemicolon rest)
    (h : Yields env (assign acc key (.string value) line) ⟨rest, line + value.toList.count '\n' + 1⟩ r) :
    Yields env acc ⟨lineText (valueLine indent key value) ++ rest, line⟩ r := by
  refine h.round 0 fun n _ => ?_
  rw [lineText_valueLine, parseProperties_assign hkey (skipWsFrom_keyLine hkey indent _ line)
    (by rw [skipWsFrom_space, skipWsFrom_stop (by decide)]), bind_of_ok (parseValue_string hvalue _ line),
    bind_of_ok (skipSemicolon_of_noSemicolon hrest.newline _), skipWsFrom_newline, parseProperties_skip]

theorem lineText_secretLine (indent : ℕ) (key name : String) (rest : List Char) :
    lineText (secretLine indent key name) ++ rest = (pad indent).toList ++ (key.toList ++
      ' ' :: ' ' :: '=' :: ' ' :: ("secret(".toList ++ '"' :: (name.toList ++ '"' :: ')' :: '\n' :: rest))) := by
  simp [lineText, secretLine]

/-- The line of a secret is one assignment. -/
theorem yields_secretLine (hkey : IsIdent key) {name : String} (hname : Unquoted name) (indent : ℕ)
    (hrest : NoSemicolon rest)
    (h : Yields env (assign acc key (.secret name) line) ⟨rest, line + name.toList.count '\n' + 1⟩ r) :
    Yields env acc ⟨lineText (secretLine indent key name) ++ rest, line⟩ r := by
  refine h.round 0 fun n _ => ?_
  rw [lineText_secretLine, parseProperties_assign hkey (skipWsFrom_keyLine hkey indent _ line)
    (by rw [skipWsFrom_space, skipWsFrom_stop (by decide)]), bind_of_ok (parseValue_secret hname _ line),
    bind_of_ok (skipSemicolon_of_noSemicolon hrest.newline _), skipWsFrom_newline, parseProperties_skip]

/-- A block whose properties are read up to its end. -/
theorem yields_block (hkey : IsIdent key) (indent : ℕ) {inner : List Char} {block : Properties F} {line' : ℕ}
    (hinner : Yields env [] ⟨inner, line⟩ (.ok (block, ⟨'\x7d' :: '\n' :: rest, line'⟩)))
    (hadd : addBlock acc key block line = .ok props) (h : Yields env props ⟨rest, line' + 1⟩ r) :
    Yields env acc ⟨(pad indent).toList ++ (key.toList ++ ' ' :: '\x7b' :: inner), line⟩ r := by
  obtain ⟨bound, hbound⟩ := hinner
  refine h.newline.round bound fun n hn => ?_
  have hblock : parseBlock (parseProperties env n []) ⟨'\x7b' :: inner, line⟩ =
      .ok (block, ⟨'\n' :: rest, line'⟩) := by
    rw [parseBlock, bind_of_ok (expectChar_stop (by decide) _ _), bind_of_ok (hbound n hn),
      bind_of_ok (expectChar_stop (by decide) _ _)]
    rfl
  exact parseProperties_block hkey (skipWsFrom_keyLine hkey indent _ line) (skipWsFrom_stop (by decide) _ _)
    hblock hadd

/-- The end of a block. -/
theorem yields_end {s : ParserState} {cs : List Char}
    (hskip : skipWsFrom s.rest s.line = ⟨'\x7d' :: cs, line⟩) :
    Yields env acc s (.ok (acc, ⟨'\x7d' :: cs, line⟩)) := by
  refine ⟨1, fun n hn => ?_⟩
  cases n with
  | zero => omega
  | succ n => exact parseProperties_end hskip

/-- What stands between the braces of a pair, and behind them. -/
def pairText (pair : String × String) (rest : List Char) : List Char :=
  ' ' :: ("key".toList ++ ' ' :: '=' :: ' ' :: '"' :: (pair.1.toList ++ '"' :: ';' :: ' ' ::
    ("value".toList ++ ' ' :: '=' :: ' ' :: '"' :: (pair.2.toList ++ '"' :: ' ' :: '\x7d' :: '\n' :: rest))))

theorem lineText_pairLine (indent : ℕ) (key : String) (pair : String × String) (rest : List Char) :
    lineText (pairLine indent key pair) ++ rest =
      (pad indent).toList ++ (key.toList ++ ' ' :: '\x7b' :: pairText pair rest) := by
  simp [lineText, pairLine, pairText]

/-- The block of a pair, with the lines of its properties. -/
def pairBlockAt (pair : String × String) (line : ℕ) : Properties F :=
  [⟨"key", .string pair.1, line⟩, ⟨"value", .string pair.2, line + pair.1.toList.count '\n'⟩]

/-- The two assignments of a pair. -/
theorem yields_pairText {pair : String × String} (hpair : Unquoted pair.1 ∧ Unquoted pair.2) :
    Yields env [] ⟨pairText pair rest, line⟩ (.ok (pairBlockAt pair line,
      ⟨'\x7d' :: '\n' :: rest, line + pair.1.toList.count '\n' + pair.2.toList.count '\n'⟩)) := by
  have hkey : IsIdent "key" := by unfold IsIdent; decide
  have hvalue : IsIdent "value" := by unfold IsIdent; decide
  have hend : ∀ line, skipWsFrom (' ' :: '\x7d' :: '\n' :: rest) line = ⟨'\x7d' :: '\n' :: rest, line⟩ :=
    fun line => by rw [skipWsFrom_space, skipWsFrom_stop (by decide)]
  have hrest : NoSemicolon (' ' :: '\x7d' :: '\n' :: rest) := fun line => by
    rw [hend]
    exact fun heq => absurd (Option.some.inj heq) (by decide)
  have hthird : Yields env (pairBlockAt pair line) ⟨'\x7d' :: '\n' :: rest,
      line + pair.1.toList.count '\n' + pair.2.toList.count '\n'⟩ (.ok (pairBlockAt pair line,
      ⟨'\x7d' :: '\n' :: rest, line + pair.1.toList.count '\n' + pair.2.toList.count '\n'⟩)) :=
    yields_end (skipWsFrom_stop (by decide) _ _)
  have hsecond : Yields env [⟨"key", .string pair.1, line⟩] ⟨' ' :: ("value".toList ++ ' ' :: '=' :: ' ' ::
      '"' :: (pair.2.toList ++ '"' :: ' ' :: '\x7d' :: '\n' :: rest)), line + pair.1.toList.count '\n'⟩
      (.ok (pairBlockAt pair line, ⟨'\x7d' :: '\n' :: rest,
        line + pair.1.toList.count '\n' + pair.2.toList.count '\n'⟩)) := by
    refine hthird.round 0 fun n _ => ?_
    rw [parseProperties_assign hvalue (by rw [skipWsFrom_space, skipWsFrom_ident hvalue])
      (skipWsFrom_stop (by decide) _ _), bind_of_ok (parseValue_string hpair.2 _ _),
      bind_of_ok (skipSemicolon_of_noSemicolon hrest _), hend]
    rfl
  refine hsecond.round 0 fun n _ => ?_
  rw [pairText, parseProperties_assign hkey (by rw [skipWsFrom_space, skipWsFrom_ident hkey])
    (skipWsFrom_stop (by decide) _ _), bind_of_ok (parseValue_string hpair.1 _ _),
    bind_of_ok (skipSemicolon_semicolon _ _)]
  rfl

/-- The line of a pair is one block. -/
theorem yields_pairLine (hkey : IsIdent key) {pair : String × String} (hpair : Unquoted pair.1 ∧ Unquoted pair.2)
    (indent : ℕ) (hadd : addBlock acc key (pairBlockAt pair line) line = .ok props)
    (h : Yields env props
      ⟨rest, line + pair.1.toList.count '\n' + pair.2.toList.count '\n' + 1⟩ r) :
    Yields env acc ⟨lineText (pairLine indent key pair) ++ rest, line⟩ r := by
  rw [lineText_pairLine]
  exact yields_block hkey indent (yields_pairText hpair) hadd h

end Lines

/-! ## Properties that are read -/

/-- The text is read as the properties, after others and before anything that is no semicolon. -/
structure Reads (env : SurfaceEnv F) (text : List Char) (new : Properties F) : Prop where
  start : ∀ rest, NoSemicolon rest → NoSemicolon (text ++ rest)
  read : ∀ line, ∃ parsed line', withoutLinesOf parsed = new ∧ ∀ rest acc r, NoSemicolon rest →
    (∀ q ∈ parsed, q.key ∉ acc.map Property.key) → Yields env (acc ++ parsed) ⟨rest, line'⟩ r →
      Yields env acc ⟨text ++ rest, line⟩ r

section Reads

variable {acc : Properties F} {key : String} {line : ℕ}

theorem withoutLinesOf_append (props props' : Properties F) :
    withoutLinesOf (props ++ props') = withoutLinesOf props ++ withoutLinesOf props' := by
  induction props with
  | nil => rfl
  | cons p props ih => rw [List.cons_append, withoutLinesOf, ih, withoutLinesOf, List.cons_append]

theorem map_key_withoutLinesOf (props : Properties F) :
    (withoutLinesOf props).map Property.key = props.map Property.key := by
  induction props with
  | nil => rfl
  | cons p props ih => rw [withoutLinesOf, List.map_cons, ih, List.map_cons]

theorem find?_eq_none_of_notMem (h : key ∉ acc.map Property.key) : acc.find? (·.key = key) = none := by
  refine List.find?_eq_none.mpr fun p hp heq => h ?_
  exact of_decide_eq_true heq ▸ List.mem_map_of_mem hp

theorem assign_new (h : key ∉ acc.map Property.key) (value : PropertyValue F) :
    assign acc key value line = acc ++ [⟨key, value, line⟩] := by
  rw [assign, find?_eq_none_of_notMem h]

/-- A second string for a key is passed over. -/
theorem assign_again (h : key ∈ acc.map Property.key) (text : String) :
    assign acc key (.string text) line = acc := by
  obtain ⟨p, hp, rfl⟩ := List.mem_map.mp h
  have hfound : (acc.find? (·.key = p.key)).isSome := List.find?_isSome.mpr ⟨p, hp, by simp⟩
  obtain ⟨existing, hexisting⟩ := Option.isSome_iff_exists.mp hfound
  rw [assign, hexisting]
  obtain ⟨_, value, _⟩ := existing
  cases value <;> rfl

theorem addBlock_new (h : key ∉ acc.map Property.key) (block : Properties F) :
    addBlock acc key block line = .ok (acc ++ [⟨key, .block block, line⟩]) := by
  rw [addBlock, find?_eq_none_of_notMem h]

theorem setFirst_append (h : key ∉ acc.map Property.key) (value old : PropertyValue F) (l : ℕ) :
    setFirst key value (acc ++ [⟨key, old, l⟩]) = acc ++ [⟨key, value, l⟩] := by
  induction acc with
  | nil => simp [setFirst]
  | cons p acc ih =>
    rw [List.map_cons, List.mem_cons, not_or] at h
    rw [List.cons_append, setFirst, if_neg (Ne.symm h.1), ih h.2, List.cons_append]

/-- One more block of a key. -/
theorem addBlock_again (h : key ∉ acc.map Property.key) {blocks : List (Properties F)} (hne : blocks ≠ [])
    (block : Properties F) (l : ℕ) :
    addBlock (acc ++ [⟨key, blockValue blocks, l⟩]) key block line =
      .ok (acc ++ [⟨key, blockValue (blocks ++ [block]), l⟩]) := by
  have hfind : (acc ++ [(⟨key, blockValue blocks, l⟩ : Property (PropertyValue F))]).find?
      (fun p => p.key = key) = some ⟨key, blockValue blocks, l⟩ := by
    rw [List.find?_append, find?_eq_none_of_notMem h]
    simp
  rw [addBlock, hfind]
  cases blocks with
  | nil => exact absurd rfl hne
  | cons first rest => cases rest <;> exact congrArg Except.ok (setFirst_append h _ _ l)

/-- No text. -/
theorem reads_nil : Reads env [] [] :=
  ⟨fun _ h => h, fun line => ⟨[], line, rfl, fun rest acc r _ _ h => by
    rw [List.append_nil] at h
    exact h⟩⟩

/-- Two texts, for different keys. -/
theorem Reads.append {text text' : List Char} {new new' : Properties F} (h : Reads env text new)
    (h' : Reads env text' new') (hkeys : ∀ p ∈ new, ∀ q ∈ new', p.key ≠ q.key) :
    Reads env (text ++ text') (new ++ new') := by
  refine ⟨fun rest hrest => ?_, fun line => ?_⟩
  · rw [List.append_assoc]
    exact h.start _ (h'.start rest hrest)
  · obtain ⟨parsed, line₁, hparsed, hread⟩ := h.read line
    obtain ⟨parsed', line₂, hparsed', hread'⟩ := h'.read line₁
    refine ⟨parsed ++ parsed', line₂, by rw [withoutLinesOf_append, hparsed, hparsed'], ?_⟩
    intro rest acc r hrest hfresh hyields
    rw [List.append_assoc]
    refine hread _ acc r (h'.start rest hrest) (fun q hq => hfresh q (List.mem_append_left _ hq)) ?_
    refine hread' rest _ r hrest (fun q hq => ?_) (by rwa [List.append_assoc])
    rw [List.map_append, List.mem_append, not_or]
    refine ⟨hfresh q (List.mem_append_right _ hq), fun hmem => ?_⟩
    -- the keys are the same with and without the lines
    rw [← map_key_withoutLinesOf, hparsed] at hmem
    obtain ⟨p, hp, hpq⟩ := List.mem_map.mp hmem
    have hq' : q.key ∈ new'.map Property.key := by
      rw [← hparsed', map_key_withoutLinesOf]
      exact List.mem_map_of_mem hq
    obtain ⟨q', hq', heq⟩ := List.mem_map.mp hq'
    exact hkeys p hp q' hq' (hpq.trans heq.symm)

/-- The characters of lines. -/
def linesText (lines : List String) : List Char := lines.flatMap lineText

theorem linesText_cons (line : String) (lines : List String) :
    linesText (line :: lines) = lineText line ++ linesText lines := List.flatMap_cons

theorem noSemicolon_linesText {α : Type} {f : α → String}
    (hf : ∀ a rest, NoSemicolon (lineText (f a) ++ rest)) (as : List α) {rest : List Char}
    (hrest : NoSemicolon rest) : NoSemicolon (linesText (as.map f) ++ rest) := by
  cases as with
  | nil => exact hrest
  | cons a as =>
    rw [List.map_cons, linesText_cons, List.append_assoc]
    exact hf a _

theorem noSemicolon_valueLine (hkey : IsIdent key) (indent : ℕ) (value : String) (rest : List Char) :
    NoSemicolon (lineText (valueLine indent key value) ++ rest) := by
  rw [lineText_valueLine]
  exact noSemicolon_keyLine hkey indent _

theorem noSemicolon_pairLine (hkey : IsIdent key) (indent : ℕ) (pair : String × String)
    (rest : List Char) : NoSemicolon (lineText (pairLine indent key pair) ++ rest) := by
  rw [lineText_pairLine]
  exact noSemicolon_keyLine hkey indent _

theorem reads_single (hkey : IsIdent key) {value : String} (hvalue : Unquoted value) (indent : ℕ) :
    Reads env (lineText (valueLine indent key value)) [⟨key, .string value, 0⟩] := by
  refine ⟨fun rest _ => noSemicolon_valueLine hkey indent value rest, fun line =>
    ⟨[⟨key, .string value, line⟩], line + value.toList.count '\n' + 1, rfl, ?_⟩⟩
  intro rest acc r hrest hfresh hyields
  refine yields_valueLine hkey hvalue indent hrest ?_
  rwa [assign_new (hfresh _ List.mem_cons_self)]

theorem reads_secret (hkey : IsIdent key) {name : String} (hname : Unquoted name) (indent : ℕ) :
    Reads env (lineText (secretLine indent key name)) [⟨key, .secret name, 0⟩] := by
  refine ⟨fun rest _ => ?_, fun line =>
    ⟨[⟨key, .secret name, line⟩], line + name.toList.count '\n' + 1, rfl, ?_⟩⟩
  · rw [lineText_secretLine]
    exact noSemicolon_keyLine hkey indent _
  · intro rest acc r hrest hfresh hyields
    refine yields_secretLine hkey hname indent hrest ?_
    rwa [assign_new (hfresh _ List.mem_cons_self)]

variable (env) in
/-- Items of a list whose key is there are passed over. -/
theorem yields_items (hkey : IsIdent key) (indent : ℕ) {items : List String}
    (hitems : ∀ item ∈ items, Unquoted item) (line : ℕ) :
    ∃ line', ∀ rest acc r, NoSemicolon rest → key ∈ acc.map Property.key →
      Yields env acc ⟨rest, line'⟩ r →
        Yields env acc ⟨linesText (items.map (valueLine indent key)) ++ rest, line⟩ r := by
  induction items generalizing line with
  | nil => exact ⟨line, fun rest acc r _ _ h => h⟩
  | cons item items ih =>
    obtain ⟨hitem, hrest⟩ := List.forall_mem_cons.mp hitems
    obtain ⟨line', hread⟩ := ih hrest (line + item.toList.count '\n' + 1)
    refine ⟨line', fun rest acc r hsemi hmem hyields => ?_⟩
    rw [List.map_cons, linesText_cons, List.append_assoc]
    refine yields_valueLine hkey hitem indent
      (noSemicolon_linesText (noSemicolon_valueLine hkey indent) items hsemi) ?_
    rw [assign_again hmem]
    exact hread rest acc r hsemi hmem hyields

/-- Of a list the first item is kept. -/
theorem reads_list (hkey : IsIdent key) (indent : ℕ) {items : List String}
    (hitems : ∀ item ∈ items, Unquoted item) :
    Reads env (linesText (items.map (valueLine indent key)))
      ((items.take 1).map fun item => ⟨key, .string item, 0⟩) := by
  refine ⟨fun rest hrest => noSemicolon_linesText (noSemicolon_valueLine hkey indent) items hrest,
    fun line => ?_⟩
  cases items with
  | nil => exact reads_nil.read line
  | cons item items =>
    obtain ⟨hitem, hrest⟩ := List.forall_mem_cons.mp hitems
    obtain ⟨line', hread⟩ := yields_items env hkey indent hrest
      (line + item.toList.count '\n' + 1)
    refine ⟨[⟨key, .string item, line⟩], line', rfl, fun rest acc r hsemi hfresh hyields => ?_⟩
    rw [List.map_cons, linesText_cons, List.append_assoc]
    refine yields_valueLine hkey hitem indent
      (noSemicolon_linesText (noSemicolon_valueLine hkey indent) items hsemi) ?_
    rw [assign_new (hfresh _ List.mem_cons_self)]
    refine hread rest _ r hsemi ?_ hyields
    rw [List.map_append]
    exact List.mem_append_right _ List.mem_cons_self

/-- The blocks of pairs from a line on, and the line behind them. -/
def pairsFrom : List (String × String) → ℕ → List (Properties F) × ℕ
  | [], line => ([], line)
  | pair :: pairs, line =>
    let later := pairsFrom pairs (line + pair.1.toList.count '\n' + pair.2.toList.count '\n' + 1)
    (pairBlockAt pair line :: later.1, later.2)

theorem withoutLinesOfBlocks_pairsFrom (pairs : List (String × String)) (line : ℕ) :
    withoutLinesOfBlocks (pairsFrom (F := F) pairs line).1 = pairs.map pairBlock := by
  induction pairs generalizing line with
  | nil => rfl
  | cons pair pairs ih =>
    rw [pairsFrom, withoutLinesOfBlocks, ih]
    rfl

theorem withoutLines_blockValue (blocks : List (Properties F)) :
    (blockValue blocks).withoutLines = blockValue (withoutLinesOfBlocks blocks) := by
  match blocks with
  | [] => rfl
  | [block] => rfl
  | first :: second :: blocks => rfl

/-- The blocks of pairs are put to those that the key has. -/
theorem yields_pairs (hkey : IsIdent key) (indent : ℕ) {pairs : List (String × String)}
    (hpairs : ∀ pair ∈ pairs, Unquoted pair.1 ∧ Unquoted pair.2) {blocks : List (Properties F)}
    (hne : blocks ≠ []) {rest : List Char} (l : ℕ) (hnew : key ∉ acc.map Property.key)
    {r : Except String (Properties F × ParserState)}
    (h : Yields env (acc ++ [⟨key, blockValue (blocks ++ (pairsFrom pairs line).1), l⟩])
      ⟨rest, (pairsFrom (F := F) pairs line).2⟩ r) :
    Yields env (acc ++ [⟨key, blockValue blocks, l⟩])
      ⟨linesText (pairs.map (pairLine indent key)) ++ rest, line⟩ r := by
  induction pairs generalizing blocks line with
  | nil => simpa [pairsFrom, linesText] using h
  | cons pair pairs ih =>
    obtain ⟨hpair, hlater⟩ := List.forall_mem_cons.mp hpairs
    rw [List.map_cons, linesText_cons, List.append_assoc]
    refine yields_pairLine hkey hpair indent (addBlock_again hnew hne _ l) (ih hlater (by simp) ?_)
    rw [List.append_assoc]
    exact h

/-- Pairs are read as their blocks. -/
theorem reads_pairs (hkey : IsIdent key) (indent : ℕ) {pairs : List (String × String)}
    (hpairs : ∀ pair ∈ pairs, Unquoted pair.1 ∧ Unquoted pair.2) :
    Reads env (linesText (pairs.map (pairLine indent key)))
      (if pairs.isEmpty then [] else [⟨key, blockValue (pairs.map pairBlock), 0⟩]) := by
  refine ⟨fun rest hrest => noSemicolon_linesText (noSemicolon_pairLine hkey indent) pairs hrest,
    fun line => ?_⟩
  cases pairs with
  | nil => exact reads_nil.read line
  | cons pair pairs =>
    obtain ⟨hpair, hlater⟩ := List.forall_mem_cons.mp hpairs
    refine ⟨[⟨key, blockValue (pairsFrom (pair :: pairs) line).1, line⟩],
      (pairsFrom (F := F) (pair :: pairs) line).2, ?_, fun rest acc r hsemi hfresh hyields => ?_⟩
    · rw [withoutLinesOf, withoutLines_blockValue, withoutLinesOfBlocks_pairsFrom]
      rfl
    · have hnew := hfresh _ List.mem_cons_self
      rw [List.map_cons, linesText_cons, List.append_assoc]
      exact yields_pairLine hkey hpair indent (addBlock_new hnew _)
        (yields_pairs hkey indent hlater (List.cons_ne_nil (pairBlockAt pair line) []) line hnew hyields)

/-- A block is read when its properties are. -/
theorem reads_block (hkey : IsIdent key) (indent : ℕ) {lines : List String} {new : Properties F}
    (h : Reads env (linesText lines) new) :
    Reads env (linesText ((pad indent ++ key ++ " \x7b") :: lines ++ [pad indent ++ "\x7d"]))
      [⟨key, .block new, 0⟩] := by
  have htext : ∀ rest, linesText ((pad indent ++ key ++ " \x7b") :: lines ++ [pad indent ++ "\x7d"]) ++ rest =
      (pad indent).toList ++ (key.toList ++ ' ' :: '\x7b' :: '\n' :: (linesText lines ++
        ((pad indent).toList ++ '\x7d' :: '\n' :: rest))) := fun rest => by
    simp [linesText, lineText]
  have hclose : ∀ rest, NoSemicolon ((pad indent).toList ++ '\x7d' :: '\n' :: rest) := fun rest line => by
    rw [skipWsFrom_pad, skipWsFrom_stop (by decide)]
    exact fun heq => absurd (Option.some.inj heq) (by decide)
  refine ⟨fun rest _ => ?_, fun line => ?_⟩
  · rw [htext]
    exact noSemicolon_keyLine hkey indent _
  · obtain ⟨parsed, line', hparsed, hread⟩ := h.read (line + 1)
    refine ⟨[⟨key, .block parsed, line⟩], line' + 1, ?_, fun rest acc r hsemi hfresh hyields => ?_⟩
    · rw [withoutLinesOf, PropertyValue.withoutLines, hparsed]
      rfl
    · rw [htext]
      refine yields_block hkey indent ?_ (addBlock_new (hfresh _ List.mem_cons_self) parsed) hyields
      refine (hread _ [] _ (hclose rest) (fun q _ => List.not_mem_nil) ?_).newline
      exact yields_end (by rw [skipWsFrom_pad, skipWsFrom_stop (by decide)])

theorem key_of_mem_contents {keep : List String → List String} {value : BuilderValue}
    {p : Property (PropertyValue F)} (h : p ∈ value.contents keep key) : p.key = key := by
  cases value with
  | single value => cases List.mem_singleton.mp h; rfl
  | secret name => cases List.mem_singleton.mp h; rfl
  | list items =>
    obtain ⟨item, -, rfl⟩ := List.mem_map.mp h
    rfl
  | pairs pairs =>
    rw [BuilderValue.contents] at h
    split_ifs at h
    · exact absurd h List.not_mem_nil
    · cases List.mem_singleton.mp h; rfl
  | block props => cases List.mem_singleton.mp h; rfl

theorem contentsEach_eq (keep : List String → List String) (props : List (String × BuilderValue)) :
    contentsEach (F := F) keep props = props.map fun e => (e.1, e.2.contents keep e.1) := by
  induction props with
  | nil => rfl
  | cons e props ih =>
    rw [contentsEach, ih]
    rfl

theorem contentsOf_eq (keep : List String → List String) (props : List (String × BuilderValue)) :
    contentsOf (F := F) keep props = (sortedEntries props).flatMap fun e => e.2.contents keep e.1 := by
  rw [contentsOf, contentsEach_eq, sortedEntries_map, List.flatMap_map]

/-- Properties with different keys are read one after the other. -/
theorem reads_flatMap {indent : ℕ} {es : List (String × BuilderValue)} (hnodup : (es.map Prod.fst).Nodup)
    (h : ∀ e ∈ es, Reads env (linesText (renderProperty indent e.1 e.2)) (e.2.contents (List.take 1) e.1)) :
    Reads env (linesText (es.flatMap fun e => renderProperty indent e.1 e.2))
      (es.flatMap fun e => e.2.contents (List.take 1) e.1) := by
  induction es with
  | nil => exact reads_nil
  | cons e es ih =>
    obtain ⟨hfirst, hrest⟩ := List.forall_mem_cons.mp h
    obtain ⟨hnotMem, hnodup⟩ := List.nodup_cons.mp hnodup
    rw [List.flatMap_cons, List.flatMap_cons, linesText, List.flatMap_append]
    refine hfirst.append (ih hnodup hrest) fun p hp q hq heq => hnotMem ?_
    obtain ⟨e', he', hq⟩ := List.mem_flatMap.mp hq
    rw [key_of_mem_contents hp, key_of_mem_contents hq] at heq
    exact heq ▸ List.mem_map_of_mem he'

end Reads

mutual

/-- The text of a value is read as what the value stands for, with the first items of its lists. -/
theorem reads_value (value : BuilderValue) (hplain : value.Plain) (hkeyed : value.Keyed) {key : String}
    (hkey : IsIdent key) (indent : ℕ) :
    Reads env (linesText (renderProperty indent key value)) (value.contents (List.take 1) key) := by
  match value with
  | .single value =>
    cases hplain with
    | single hvalue =>
      rw [renderProperty, linesText_cons, linesText, List.flatMap_nil, List.append_nil]
      exact reads_single hkey hvalue indent
  | .secret name =>
    cases hplain with
    | secret hname =>
      rw [renderProperty, linesText_cons, linesText, List.flatMap_nil, List.append_nil]
      exact reads_secret hkey hname indent
  | .list items =>
    cases hplain with
    | list hitems => exact reads_list hkey indent hitems
  | .pairs pairs =>
    cases hplain with
    | pairs hpairs => exact reads_pairs hkey indent hpairs
  | .block props =>
    cases hplain with
    | block hkeys hvalues =>
      cases hkeyed with
      | block hnodup hnested =>
        have heach := reads_each props hvalues hnested hkeys (indent + 1)
        have hall := reads_flatMap (nodup_keys_sortedEntries hnodup)
          fun e he => heach e (mem_of_mem_sortedEntries he)
        rw [← renderProperties_eq, ← contentsOf_eq] at hall
        exact reads_block hkey indent hall

theorem reads_each (props : List (String × BuilderValue)) (hplain : ∀ e ∈ props, e.2.Plain)
    (hkeyed : ∀ e ∈ props, e.2.Keyed) (hkeys : ∀ e ∈ props, IsIdent e.1) (indent : ℕ) :
    ∀ e ∈ props, Reads env (linesText (renderProperty indent e.1 e.2))
      (e.2.contents (List.take 1) e.1) := by
  match props with
  | [] => exact fun e he => absurd he List.not_mem_nil
  | (key, value) :: props =>
    obtain ⟨hplain, hplains⟩ := List.forall_mem_cons.mp hplain
    obtain ⟨hkeyed, hkeyeds⟩ := List.forall_mem_cons.mp hkeyed
    obtain ⟨hkey, hkeys⟩ := List.forall_mem_cons.mp hkeys
    exact List.forall_mem_cons.mpr ⟨reads_value value hplain hkeyed hkey indent,
      reads_each props hplains hkeyeds hkeys indent⟩

end

/-! ## The whole text -/

/-- Lines that are joined, with a last one that is empty. -/
theorem toList_intercalate_lines (lines : List String) :
    ("\n".intercalate (lines ++ [""])).toList = linesText lines := by
  induction lines with
  | nil => rfl
  | cons line lines ih =>
    rw [List.cons_append, String.intercalate_cons_of_ne_nil (by simp), String.toList_append,
      String.toList_append, ih, linesText_cons]
    simp [lineText]

/-- Enough fuel is what the parser of properties has. -/
theorem properties_of_yields {s : ParserState} {r : Except String (Properties F × ParserState)}
    (h : Yields env [] s r) : properties env s = r := by
  obtain ⟨bound, hbound⟩ := h
  have hfuel : s.rest.length < max bound (s.rest.length + 1) := by omega
  rw [properties_fuel hfuel]
  exact hbound _ (le_max_left _ _)

theorem parseString_space {text : String} (h : Unquoted text) (cs : List Char) (line : ℕ) :
    parseString ⟨' ' :: '"' :: (text.toList ++ '"' :: cs), line⟩ =
      .ok (text, ⟨cs, line + text.toList.count '\n'⟩) := by
  have hspace : skipWs ⟨' ' :: '"' :: (text.toList ++ '"' :: cs), line⟩ =
      .ok ((), ⟨'"' :: (text.toList ++ '"' :: cs), line⟩) := by
    rw [skipWs, skipWsFrom_space, skipWsFrom_stop (by decide)]
  rw [parseString, bind_of_ok hspace, bind_of_ok (expectChar_stop (by decide) _ line)]
  exact scanString_eq_ok.mpr ⟨cs, rfl, h, rfl⟩

/-- A resource whose properties are read. -/
theorem parseResource_of_reads {resourceType name : String} (htype : IsIdent resourceType)
    (hname : Unquoted name) {text : List Char} {new : Properties F} (h : Reads env text new) (line : ℕ) :
    ∃ parsed line', withoutLinesOf parsed = new ∧
      parseResource env ⟨resourceType.toList ++ ' ' :: '"' :: (name.toList ++ '"' :: ' ' :: '\x7b' :: '\n' ::
        (text ++ '\x7d' :: ['\n'])), line⟩ =
      .ok (⟨resourceType, name, parsed, line⟩, ⟨['\n'], line'⟩) := by
  obtain ⟨parsed, line', hparsed, hread⟩ := h.read (line + name.toList.count '\n' + 1)
  have hsemi : NoSemicolon ('\x7d' :: ['\n']) := fun line => by
    rw [skipWsFrom_stop (by decide)]
    exact fun heq => absurd (Option.some.inj heq) (by decide)
  have hprops : properties env ⟨'\n' :: (text ++ '\x7d' :: ['\n']), line + name.toList.count '\n'⟩ =
      .ok (parsed, ⟨'\x7d' :: ['\n'], line'⟩) :=
    properties_of_yields (hread _ [] _ hsemi (fun _ _ => List.not_mem_nil)
      (yields_end (skipWsFrom_stop (by decide) _ _))).newline
  have hbrace : expectChar '\x7b' ⟨' ' :: '\x7b' :: '\n' :: (text ++ '\x7d' :: ['\n']),
      line + name.toList.count '\n'⟩ =
      .ok ((), ⟨'\n' :: (text ++ '\x7d' :: ['\n']), line + name.toList.count '\n'⟩) :=
    expectChar_eq_ok.mpr ⟨_, _, by rw [skipWsFrom_space, skipWsFrom_stop (by decide)], by
      rw [if_neg (by decide)]⟩
  refine ⟨parsed, line', hparsed, ?_⟩
  rw [parseResource, bind_of_ok (p := currentLine) rfl, bind_of_ok (parseIdent_ident htype (by decide) _ _),
    bind_of_ok (parseString_space hname _ _), bind_of_ok hbrace, bind_of_ok hprops,
    bind_of_ok (expectChar_stop (by decide) _ _)]
  rfl

/-- A file with one resource and the end of its line. -/
theorem parseResources_single {c : Char} (hc : StopsAt c) {cs : List Char} {resource : ResourceDecl F}
    {line line' : ℕ} (h : parseResource env ⟨c :: cs, line⟩ = .ok (resource, ⟨['\n'], line'⟩)) (fuel : ℕ) :
    parseResources env (fuel + 2) ⟨c :: cs, line⟩ = .ok ([resource], ⟨[], line' + 1⟩) := by
  have hpeek : peek ⟨c :: cs, line⟩ = .ok (some c, ⟨c :: cs, line⟩) := rfl
  have hlast : parseResources env (fuel + 1) ⟨['\n'], line'⟩ = .ok ([], ⟨[], line' + 1⟩) := by
    have hskip : skipWs ⟨['\n'], line'⟩ = .ok ((), ⟨[], line' + 1⟩) := by
      rw [skipWs, skipWsFrom_newline, skipWsFrom]
    have hend : peek ⟨[], line' + 1⟩ = .ok (none, ⟨[], line' + 1⟩) := rfl
    rw [parseResources, bind_of_ok hskip, bind_of_ok hend, if_pos rfl]
    rfl
  rw [parseResources, bind_of_ok (skipWs_stop hc cs line), bind_of_ok hpeek, if_neg (Option.some_ne_none c),
    bind_of_ok h, bind_of_ok hlast]
  rfl

theorem isIdent_of_mem_knownResourceTypes : ∀ t ∈ knownResourceTypes, IsIdent t := by
  unfold IsIdent
  decide +kernel

variable (env) in
/-- The text of a builder is read as the resource, with the first items of its lists. -/
theorem parse_render (b : ResourceBuilder) {name : String} (hb : b.name = some name)
    (hname : Unquoted name) (hplain : (BuilderValue.block b.properties).Plain) :
    ∃ text, b.render = .ok text ∧ ∀ path, ∃ file, parse env text path = .ok file ∧
      file.resources.map ResourceDecl.withoutLines =
        [⟨b.resourceType, name, contentsOf (List.take 1) b.properties, 0⟩] := by
  have htype := isIdent_of_mem_knownResourceTypes _ b.known
  cases hplain with
  | block hkeys hvalues =>
    cases b.keyed with
    | block hnodup hnested =>
      have heach : ∀ e ∈ b.properties, Reads env (linesText (renderProperty 1 e.1 e.2))
          (e.2.contents (List.take 1) e.1) := reads_each b.properties hvalues hnested hkeys 1
      have hreads := reads_flatMap (nodup_keys_sortedEntries hnodup) fun e he =>
        heach e (mem_of_mem_sortedEntries he)
      rw [← renderProperties_eq, ← contentsOf_eq] at hreads
      obtain ⟨parsed, line', hparsed, hresource⟩ := parseResource_of_reads htype hname hreads 1
      have hrender : b.render = .ok ("\n".intercalate
          ((b.resourceType ++ " \"" ++ name ++ "\" \x7b") :: renderProperties 1 b.properties ++
            ["\x7d", ""])) := by rw [ResourceBuilder.render, hb]
      refine ⟨_, hrender, fun path => ?_⟩
      have htext : ("\n".intercalate ((b.resourceType ++ " \"" ++ name ++ "\" \x7b") ::
          renderProperties 1 b.properties ++ ["\x7d", ""])).toList =
          b.resourceType.toList ++ ' ' :: '"' :: (name.toList ++ '"' :: ' ' :: '\x7b' :: '\n' ::
            (linesText (renderProperties 1 b.properties) ++ '\x7d' :: ['\n'])) := by
        have hlines := toList_intercalate_lines ((b.resourceType ++ " \"" ++ name ++ "\" \x7b") ::
          renderProperties 1 b.properties ++ ["\x7d"])
        rw [List.append_assoc] at hlines
        refine hlines.trans ?_
        simp [linesText, lineText]
      obtain ⟨c, cs, hcons, hc⟩ := htype.exists_cons
      have hstop : StopsAt c := stopsAt_of_isIdentChar (isIdentChar_of_isAlpha hc)
      rw [hcons] at hresource htext
      rw [List.cons_append] at hresource
      have hrun := parseResources_single hstop hresource (cs ++ ' ' :: '"' :: (name.toList ++ '"' :: ' ' ::
        '\x7b' :: '\n' :: (linesText (renderProperties 1 b.properties) ++ '\x7d' :: ['\n']))).length
      refine ⟨⟨path, [⟨b.resourceType, name, parsed, 1⟩]⟩, ?_, ?_⟩
      · rw [parse, htext, List.cons_append, List.length_cons, hrun]
        rfl
      · rw [List.map_singleton, ResourceDecl.withoutLines, hparsed]

/-! ## What is lost -/

mutual

/-- Nothing is lost without long lists. -/
theorem contents_of_short {value : BuilderValue} (h : value.ListsShort) (key : String) :
    value.contents (F := F) (List.take 1) key = value.contents id key := by
  match value with
  | .single _ | .secret _ | .pairs _ => rfl
  | .list items =>
    cases h with
    | list hitems => rw [BuilderValue.contents, BuilderValue.contents, List.take_of_length_le hitems, id]
  | .block props =>
    cases h with
    | block hprops => rw [BuilderValue.contents, BuilderValue.contents, contentsEach_of_short hprops]

theorem contentsEach_of_short {props : List (String × BuilderValue)} (h : ∀ e ∈ props, e.2.ListsShort) :
    contentsEach (F := F) (List.take 1) props = contentsEach id props := by
  match props with
  | [] => rfl
  | (key, value) :: props =>
    obtain ⟨hfirst, hrest⟩ := List.forall_mem_cons.mp h
    rw [contentsEach, contentsEach, contents_of_short hfirst key, contentsEach_of_short hrest]

end

/-- Two lists that are put together from pieces, the first ones at least as long as the second. -/
theorem eq_of_flatMap_eq {α β : Type} {f g : α → List β} {as : List α}
    (hlength : ∀ a ∈ as, (g a).length ≤ (f a).length) (h : as.flatMap f = as.flatMap g) :
    ∀ a ∈ as, f a = g a := by
  induction as with
  | nil => exact fun a ha => absurd ha List.not_mem_nil
  | cons a as ih =>
    obtain ⟨hfirst, hrest⟩ := List.forall_mem_cons.mp hlength
    rw [List.flatMap_cons, List.flatMap_cons] at h
    have htail : (as.flatMap g).length ≤ (as.flatMap f).length := by
      rw [List.length_flatMap, List.length_flatMap]
      exact List.sum_le_sum hrest
    have hsum := congrArg List.length h
    rw [List.length_append, List.length_append] at hsum
    obtain ⟨heq, hall⟩ := List.append_inj h (by omega)
    exact List.forall_mem_cons.mpr ⟨heq, ih hrest hall⟩

theorem length_contents_le (value : BuilderValue) (key : String) :
    (value.contents (F := F) (List.take 1) key).length ≤ (value.contents (F := F) id key).length := by
  cases value with
  | list items =>
    rw [BuilderValue.contents, BuilderValue.contents, List.length_map, List.length_map]
    exact List.length_take_le' 1 items
  | _ => exact le_rfl

mutual

/-- What is lost is the rest of a long list. -/
theorem short_of_contents (value : BuilderValue) (hkeyed : value.Keyed) {key : String}
    (h : value.contents (F := F) id key = value.contents (List.take 1) key) : value.ListsShort := by
  match value with
  | .single _ => exact .single _
  | .secret _ => exact .secret _
  | .pairs _ => exact .pairs _
  | .list items =>
    have hlength := congrArg List.length h
    rw [BuilderValue.contents, BuilderValue.contents, List.length_map, List.length_map, id,
      List.length_take] at hlength
    exact .list (by omega)
  | .block props =>
    cases hkeyed with
    | block hnodup hnested =>
      have hinner : contentsOf (F := F) id props = contentsOf (List.take 1) props := by
        simpa [BuilderValue.contents, contentsOf] using h
      rw [contentsOf_eq, contentsOf_eq] at hinner
      have heach := eq_of_flatMap_eq (fun e _ => length_contents_le e.2 e.1) hinner
      exact .block (short_of_each props hnested fun e he => heach e (mem_sortedEntries hnodup he))

theorem short_of_each (props : List (String × BuilderValue)) (hkeyed : ∀ e ∈ props, e.2.Keyed)
    (h : ∀ e ∈ props, e.2.contents (F := F) id e.1 = e.2.contents (List.take 1) e.1) :
    ∀ e ∈ props, e.2.ListsShort := by
  match props with
  | [] => exact fun e he => absurd he List.not_mem_nil
  | (key, value) :: props =>
    obtain ⟨hfirst, hrest⟩ := List.forall_mem_cons.mp h
    obtain ⟨hkeyed, hkeyeds⟩ := List.forall_mem_cons.mp hkeyed
    exact List.forall_mem_cons.mpr ⟨short_of_contents value hkeyed hfirst,
      short_of_each props hkeyeds hrest⟩

end

/-- A builder that is read back whole has no long lists. -/
theorem listsShort_of_parsesBack {b : ResourceBuilder} {name : String} (hb : b.name = some name)
    (hname : Unquoted name) (hplain : (BuilderValue.block b.properties).Plain)
    (h : ParsesBack env b name) : (BuilderValue.block b.properties).ListsShort := by
  obtain ⟨text, hrender, hparse⟩ := parse_render env b hb hname hplain
  obtain ⟨text', hrender', hback⟩ := h
  cases Except.ok.inj (hrender.symm.trans hrender')
  obtain ⟨file, hfile, hresources⟩ := hparse ""
  obtain ⟨file', hfile', hresources'⟩ := hback ""
  cases Except.ok.inj (hfile.symm.trans hfile')
  have heq := (List.cons.inj (hresources'.symm.trans hresources)).1
  have hcontents : (BuilderValue.block b.properties).contents (F := F) id "" =
      (BuilderValue.block b.properties).contents (List.take 1) "" := by
    have hprops : contentsOf (F := F) id b.properties = contentsOf (List.take 1) b.properties :=
      congrArg ResourceDecl.properties heq
    rw [BuilderValue.contents, BuilderValue.contents, ← contentsOf, ← contentsOf, hprops]
  exact short_of_contents (.block b.properties) b.keyed hcontents

/-- **When a builder is read back whole.** The text of a builder with a name, with identifiers as keys and
without quotes is parsed as the one resource with all values, in the order of their keys, exactly when none
of its lists has two items. -/
theorem parsesBack_iff {b : ResourceBuilder} {name : String} (hb : b.name = some name)
    (hname : Unquoted name) (hplain : (BuilderValue.block b.properties).Plain) :
    ParsesBack env b name ↔ (BuilderValue.block b.properties).ListsShort := by
  refine ⟨listsShort_of_parsesBack hb hname hplain, fun hshort => ?_⟩
  obtain ⟨text, hrender, hparse⟩ := parse_render env b hb hname hplain
  refine ⟨text, hrender, fun path => ?_⟩
  obtain ⟨file, hfile, hresources⟩ := hparse path
  refine ⟨file, hfile, ?_⟩
  cases hshort with
  | block hprops =>
    rw [hresources, contentsOf, contentsEach_of_short hprops]
    rfl

/-! ## A list of scopes -/

theorem keyed_block_nil : (BuilderValue.block []).Keyed := .block List.nodup_nil fun _ h => absurd h List.not_mem_nil

/-- A permission for the scopes of a list. -/
def permissionBuilder (scopes : List String) : ResourceBuilder :=
  let empty : ResourceBuilder :=
    ⟨"m2m-permission", some "reader", [], by decide +kernel, keyed_block_nil⟩
  ((empty.property "product" "shop").property "client" "web").list "scopes" scopes

theorem properties_permissionBuilder (scopes : List String) :
    (permissionBuilder scopes).properties =
      [("scopes", .list scopes), ("client", .single "web"), ("product", .single "shop")] := rfl

theorem plain_permissionBuilder {scopes : List String} (h : ∀ scope ∈ scopes, Unquoted scope) :
    (BuilderValue.block (permissionBuilder scopes).properties).Plain := by
  have hkeys : IsIdent "scopes" ∧ IsIdent "client" ∧ IsIdent "product" := by
    unfold IsIdent
    decide +kernel
  rw [properties_permissionBuilder]
  refine .block ?_ ?_
  · simp only [List.forall_mem_cons]
    exact ⟨hkeys.1, hkeys.2.1, hkeys.2.2, List.forall_mem_nil _⟩
  · simp only [List.forall_mem_cons]
    exact ⟨.list h, .single (by unfold Unquoted; decide), .single (by unfold Unquoted; decide),
      List.forall_mem_nil _⟩

/-- One scope is read back. -/
theorem parsesBack_oneScope :
    Unquoted "reader" ∧ (BuilderValue.block (permissionBuilder ["read"]).properties).Plain ∧
      ParsesBack sampleSurface (permissionBuilder ["read"]) "reader" := by
  have hname : Unquoted "reader" := by unfold Unquoted; decide
  have hplain : (BuilderValue.block (permissionBuilder ["read"]).properties).Plain :=
    plain_permissionBuilder (by unfold Unquoted; decide)
  refine ⟨hname, hplain, (parsesBack_iff rfl hname hplain).mpr (.block ?_)⟩
  rw [properties_permissionBuilder]
  simp only [List.forall_mem_cons]
  exact ⟨.list le_rfl, .single _, .single _, List.forall_mem_nil _⟩

/-- **Of two scopes the second one is lost.** -/
theorem not_parsesBack_twoScopes :
    Unquoted "reader" ∧ (BuilderValue.block (permissionBuilder ["read", "write"]).properties).Plain ∧
      ¬ ParsesBack sampleSurface (permissionBuilder ["read", "write"]) "reader" := by
  have hname : Unquoted "reader" := by unfold Unquoted; decide
  have hplain : (BuilderValue.block (permissionBuilder ["read", "write"]).properties).Plain :=
    plain_permissionBuilder (by unfold Unquoted; decide)
  refine ⟨hname, hplain, fun hback => ?_⟩
  cases listsShort_of_parsesBack rfl hname hplain hback with
  | block hprops =>
    cases hprops _ (List.mem_cons_self) with
    | list hlength => exact absurd hlength (by decide)

end Picloud
