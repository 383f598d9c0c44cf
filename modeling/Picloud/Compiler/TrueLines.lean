import Picloud.Compiler.Cursor
import Picloud.Compiler.Entries

/-!
# Lines in parsed files

The line of a resource or a property is one more than the newlines of the source before its first token,
wherever these newlines stand (`parse_total`). The tokens are those of the entries of the text: a property
has the line of the first entry with its key, and what is in a block has the lines of the entries in it.
-/

namespace Picloud

open Lib ParserOf

variable {F : Type} {source : List Char}

/-! ## What is claimed -/

/-- The word is a token of the source, in the line: `start` is the text from the word on. -/
def TokenAt (source : List Char) (word : String) (start : List Char) (line : ℕ) : Prop :=
  ∃ before, source = before ++ start ∧ word.toList <+: start ∧ line = 1 + before.count '\n'

/-- What is in an entry. -/
def SurfaceEntry.contents : SurfaceEntry F → List (SurfaceEntry F)
  | .scalar _ _ _ => []
  | .assigned _ _ entries | .block _ _ entries => entries

/-- The entries with a key. -/
def entriesFor (entries : List (SurfaceEntry F)) (key : String) : List (SurfaceEntry F) :=
  entries.filter (·.key = key)

mutual

/-- The lines in a value are true, for the entries with its key. -/
def PropertyValue.TrueIn (source : List Char) :
    PropertyValue F → List (SurfaceEntry F) → Prop
  | .block props, entries => ∃ entry, entries.head? = some entry ∧ LinesTrue source props entry.contents
  | .blocks all, entries => ∃ chosen, chosen.Sublist entries ∧ BlocksTrue source all chosen
  | .string _, _ | .number _, _ | .bool _, _ | .secret _, _ => True

/-- A property has the line of the first entry with its key. -/
def LinesTrue (source : List Char) :
    List (Property (PropertyValue F)) → List (SurfaceEntry F) → Prop
  | [], _ => True
  | ⟨key, value, line⟩ :: props, entries =>
    (∃ entry, (entriesFor entries key).head? = some entry ∧ TokenAt source key entry.start line) ∧
      value.TrueIn source (entriesFor entries key) ∧ LinesTrue source props entries

/-- The lines in each block are true, for the entries in one entry each. -/
def BlocksTrue (source : List Char) :
    List (List (Property (PropertyValue F))) → List (SurfaceEntry F) → Prop
  | [], chosen => chosen = []
  | block :: blocks, chosen => ∃ entry rest, chosen = entry :: rest ∧
      LinesTrue source block entry.contents ∧ BlocksTrue source blocks rest

end

/-- What is claimed of a file: the lines of its resources and properties are true. -/
def TrueLines (env : SurfaceEnv F) (source : String) (file : ParsedFile F) : Prop :=
  ∃ entries, entriesOf env source = .ok entries ∧ List.Forall₂
    (fun entry resource => TokenAt source.toList resource.resourceType entry.start resource.line ∧
      LinesTrue source.toList resource.properties entry.entries) entries file.resources

/-! ## Tokens of the entries -/

/-- The word is at the front of an end of the source. -/
def TokenStart (source : List Char) (word : String) (start : List Char) : Prop :=
  word.toList <+: start ∧ start <:+ source

mutual

/-- The entry begins with its key, and so do the entries in it. -/
def SurfaceEntry.Placed (source : List Char) : SurfaceEntry F → Prop
  | .scalar key start _ => TokenStart source key start
  | .assigned key start entries | .block key start entries =>
    TokenStart source key start ∧ AllPlaced source entries

def AllPlaced (source : List Char) : List (SurfaceEntry F) → Prop
  | [] => True
  | entry :: entries => entry.Placed source ∧ AllPlaced source entries

end

variable {start : List Char}

theorem tokenAt_of_tokenStart {word : String} (h : TokenStart source word start) :
    TokenAt source word start (lineAt source start) := by
  obtain ⟨hword, before, rfl⟩ := h
  refine ⟨before, rfl, hword, ?_⟩
  rw [lineAt, List.count_append, Nat.add_sub_cancel]

theorem SurfaceEntry.Placed.tokenStart {entry : SurfaceEntry F} (h : entry.Placed source) :
    TokenStart source entry.key entry.start := by
  cases entry with
  | scalar key start value => rwa [SurfaceEntry.Placed] at h
  | assigned key start entries =>
    rw [SurfaceEntry.Placed] at h
    exact h.1
  | block key start entries =>
    rw [SurfaceEntry.Placed] at h
    exact h.1

/-! ## Growing lists of entries -/

section Growing

variable {done : List (SurfaceEntry F)} {entry : SurfaceEntry F} {props : Properties F} {key : String}

theorem entriesFor_concat : entriesFor (done ++ [entry]) key =
    entriesFor done key ++ if entry.key = key then [entry] else [] := by
  rw [entriesFor, List.filter_append, List.filter_singleton, entriesFor]
  simp

theorem linesTrue_iff : LinesTrue source props done ↔ ∀ p ∈ props,
    (∃ entry, (entriesFor done p.key).head? = some entry ∧ TokenAt source p.key entry.start p.line) ∧
      p.value.TrueIn source (entriesFor done p.key) := by
  induction props with
  | nil => simp [LinesTrue]
  | cons p props ih =>
    obtain ⟨key, value, line⟩ := p
    rw [LinesTrue, ih, List.forall_mem_cons, and_assoc]

variable {value : PropertyValue F} {p : Property (PropertyValue F)} {line : ℕ}

theorem PropertyValue.TrueIn.append {entries entries' : List (SurfaceEntry F)}
    (h : value.TrueIn source entries) : value.TrueIn source (entries ++ entries') := by
  cases value with
  | block props =>
    rw [PropertyValue.TrueIn] at h ⊢
    obtain ⟨first, hfirst, hlines⟩ := h
    exact ⟨first, by rw [List.head?_append, hfirst]; rfl, hlines⟩
  | blocks all =>
    rw [PropertyValue.TrueIn] at h ⊢
    obtain ⟨chosen, hsub, hblocks⟩ := h
    exact ⟨chosen, hsub.trans (List.sublist_append_left _ _), hblocks⟩
  | string text => rw [PropertyValue.TrueIn]; trivial
  | number n => rw [PropertyValue.TrueIn]; trivial
  | bool b => rw [PropertyValue.TrueIn]; trivial
  | secret name => rw [PropertyValue.TrueIn]; trivial

theorem blocksTrue_concat {blocks : List (Properties F)} {block : Properties F}
    {chosen : List (SurfaceEntry F)} (h : BlocksTrue source blocks chosen)
    (hblock : LinesTrue source block entry.contents) :
    BlocksTrue source (blocks ++ [block]) (chosen ++ [entry]) := by
  induction blocks generalizing chosen with
  | nil =>
    rw [BlocksTrue] at h
    subst h
    rw [List.nil_append, BlocksTrue]
    exact ⟨entry, [], rfl, hblock, by rw [BlocksTrue]⟩
  | cons first blocks ih =>
    rw [BlocksTrue] at h
    obtain ⟨e, rest, rfl, hfirst, hrest⟩ := h
    rw [List.cons_append, BlocksTrue]
    exact ⟨e, rest ++ [entry], rfl, hfirst, ih hrest⟩

theorem cases_mem_setFirst (h : p ∈ setFirst key value props) :
    p ∈ props ∨ p.key = key ∧ p.value = value ∧
      ∃ q ∈ props, q.key = key ∧ q.line = p.line := by
  induction props with
  | nil => cases h
  | cons q props ih =>
    rw [setFirst] at h
    split_ifs at h with hq
    · rcases List.mem_cons.mp h with rfl | h
      · exact Or.inr ⟨hq, rfl, q, List.mem_cons_self, hq, rfl⟩
      · exact Or.inl (List.mem_cons_of_mem _ h)
    · rcases List.mem_cons.mp h with rfl | h
      · exact Or.inl List.mem_cons_self
      · rcases ih h with hmem | ⟨hkey, hvalue, q', hq', hrest⟩
        · exact Or.inl (List.mem_cons_of_mem _ hmem)
        · exact Or.inr ⟨hkey, hvalue, q', List.mem_cons_of_mem _ hq', hrest⟩

theorem keys_setFirst (key : String) (props : Properties F) :
    (setFirst key value props).map Property.key = props.map Property.key := by
  induction props with
  | nil => rfl
  | cons q props ih =>
    rw [setFirst]
    split_ifs
    · rfl
    · rw [List.map_cons, List.map_cons, ih]

/-- The lines of the properties are true, and no entry is without a property. -/
structure LinesSoFar (source : List Char) (done : List (SurfaceEntry F)) (props : Properties F) :
    Prop where
  lines : LinesTrue source props done
  keys : ∀ entry ∈ done, entry.key ∈ props.map Property.key

theorem entriesFor_eq_nil (h : LinesSoFar source done props)
    (hnew : props.find? (·.key = key) = none) : entriesFor done key = [] := by
  rw [entriesFor, List.filter_eq_nil_iff]
  intro e he hkey
  obtain ⟨p, hp, hpe⟩ := List.mem_map.mp (h.keys e he)
  rw [List.find?_eq_none] at hnew
  exact hnew p hp (by simpa [hpe] using hkey)

theorem linesTrue_concat (h : LinesTrue source props done) : LinesTrue source props (done ++ [entry]) := by
  refine linesTrue_iff.mpr fun p hp => ?_
  obtain ⟨⟨first, hfirst, htoken⟩, hvalue⟩ := linesTrue_iff.mp h p hp
  rw [entriesFor_concat]
  exact ⟨⟨first, by rw [List.head?_append, hfirst]; rfl, htoken⟩, hvalue.append⟩

/-- An entry whose key is there is passed over. -/
theorem LinesSoFar.same (h : LinesSoFar source done props) (hkey : entry.key ∈ props.map Property.key) :
    LinesSoFar source (done ++ [entry]) props := by
  refine ⟨linesTrue_concat h.lines, fun e he => ?_⟩
  rcases List.mem_append.mp he with he | he
  · exact h.keys e he
  · rwa [List.mem_singleton.mp he]

/-- An entry with a new key is the first one. -/
theorem LinesSoFar.new (h : LinesSoFar source done props)
    (hnew : props.find? (·.key = entry.key) = none)
    (htoken : TokenAt source entry.key entry.start line) (hvalue : value.TrueIn source [entry]) :
    LinesSoFar source (done ++ [entry]) (props ++ [⟨entry.key, value, line⟩]) := by
  have hentries : entriesFor (done ++ [entry]) entry.key = [entry] := by
    rw [entriesFor_concat, entriesFor_eq_nil h hnew, if_pos rfl, List.nil_append]
  constructor
  · refine linesTrue_iff.mpr fun p hp => ?_
    rcases List.mem_append.mp hp with hp | hp
    · exact linesTrue_iff.mp (linesTrue_concat h.lines) p hp
    · rw [List.mem_singleton.mp hp]
      dsimp only
      rw [hentries]
      exact ⟨⟨entry, rfl, htoken⟩, hvalue⟩
  · intro e he
    rw [List.map_append, List.mem_append]
    rcases List.mem_append.mp he with he | he
    · exact Or.inl (h.keys e he)
    · rw [List.mem_singleton.mp he]
      exact Or.inr List.mem_cons_self

/-- An entry is taken up beside those with its key. -/
theorem LinesSoFar.set (h : LinesSoFar source done props)
    (hkey : entry.key ∈ props.map Property.key)
    (hvalue : value.TrueIn source (entriesFor done entry.key ++ [entry])) :
    LinesSoFar source (done ++ [entry]) (setFirst entry.key value props) := by
  constructor
  · refine linesTrue_iff.mpr fun p hp => ?_
    rcases cases_mem_setFirst hp with hp | ⟨hpkey, hpvalue, q, hq, hqkey, hqline⟩
    · exact linesTrue_iff.mp (linesTrue_concat h.lines) p hp
    · obtain ⟨hfirst, -⟩ := linesTrue_iff.mp (linesTrue_concat h.lines) q hq
      rw [hqkey, hqline] at hfirst
      rw [hpkey, hpvalue]
      refine ⟨hfirst, ?_⟩
      rwa [entriesFor_concat, if_pos rfl]
  · rw [keys_setFirst]
    exact (h.same hkey).keys

theorem mem_keys_of_find? (h : props.find? (·.key = key) = some p) :
    p ∈ props ∧ p.key = key ∧ key ∈ props.map Property.key := by
  have hmem := List.mem_of_find?_eq_some h
  have hkey : p.key = key := by simpa using List.find?_some h
  exact ⟨hmem, hkey, List.mem_map.mpr ⟨p, hmem, hkey⟩⟩

/-- What stands in the properties for a key, beside the entries with the key. -/
theorem LinesSoFar.trueIn (h : LinesSoFar source done props)
    (hfind : props.find? (·.key = key) = some p) : p.value.TrueIn source (entriesFor done key) := by
  obtain ⟨hmem, hkey, -⟩ := mem_keys_of_find? hfind
  rw [← hkey]
  exact (linesTrue_iff.mp h.lines p hmem).2

theorem linesSoFar_assign (h : LinesSoFar source done props)
    (htoken : TokenAt source entry.key entry.start line) (hvalue : value.TrueIn source [entry]) :
    LinesSoFar source (done ++ [entry]) (assign props entry.key value line) := by
  rw [assign]
  cases hfind : props.find? (·.key = entry.key) with
  | none => exact h.new hfind htoken hvalue
  | some existing =>
    obtain ⟨-, -, hkey⟩ := mem_keys_of_find? hfind
    have htrue := h.trueIn hfind
    dsimp only
    split
    · next blocks block hblocks =>
      rw [hblocks, PropertyValue.TrueIn] at htrue
      rw [PropertyValue.TrueIn] at hvalue
      obtain ⟨chosen, hsub, hall⟩ := htrue
      obtain ⟨first, hfirst, hlines⟩ := hvalue
      cases hfirst
      refine h.set hkey ?_
      rw [PropertyValue.TrueIn]
      exact ⟨chosen ++ [entry], hsub.append (List.Sublist.refl _), blocksTrue_concat hall hlines⟩
    · exact h.same hkey

theorem linesSoFar_addBlock {block : Properties F} {props' : Properties F}
    (h : LinesSoFar source done props) (htoken : TokenAt source entry.key entry.start line)
    (hblock : LinesTrue source block entry.contents)
    (hadd : addBlock props entry.key block line = .ok props') :
    LinesSoFar source (done ++ [entry]) props' := by
  rw [addBlock] at hadd
  cases hfind : props.find? (·.key = entry.key) with
  | none =>
    rw [hfind] at hadd
    cases hadd
    refine h.new hfind htoken ?_
    rw [PropertyValue.TrueIn]
    exact ⟨entry, rfl, hblock⟩
  | some existing =>
    rw [hfind] at hadd
    obtain ⟨-, -, hkey⟩ := mem_keys_of_find? hfind
    have htrue := h.trueIn hfind
    dsimp only at hadd
    split at hadd
    · next blocks hblocks =>
      cases hadd
      rw [hblocks, PropertyValue.TrueIn] at htrue
      obtain ⟨chosen, hsub, hall⟩ := htrue
      refine h.set hkey ?_
      rw [PropertyValue.TrueIn]
      exact ⟨chosen ++ [entry], hsub.append (List.Sublist.refl _), blocksTrue_concat hall hblock⟩
    · next first hfirst =>
      cases hadd
      rw [hfirst, PropertyValue.TrueIn] at htrue
      obtain ⟨e, hhead, hlines⟩ := htrue
      refine h.set hkey ?_
      rw [PropertyValue.TrueIn]
      obtain ⟨rest, hrest⟩ := List.head?_eq_some_iff.mp hhead
      refine ⟨[e, entry], ?_, ?_⟩
      · rw [hrest, List.cons_append]
        exact (List.sublist_append_right rest [entry]).cons_cons e
      · rw [BlocksTrue]
        exact ⟨e, [entry], rfl, hlines, by simpa [BlocksTrue] using hblock⟩
    · cases hadd

end Growing

/-! ## Merging -/

theorem trueIn_of_isScalar {value : PropertyValue F} (h : value.isScalar = true)
    (entries : List (SurfaceEntry F)) : value.TrueIn source entries := by
  cases value with
  | block props => cases h
  | blocks all => cases h
  | string text => rw [PropertyValue.TrueIn]; trivial
  | number n => rw [PropertyValue.TrueIn]; trivial
  | bool b => rw [PropertyValue.TrueIn]; trivial
  | secret name => rw [PropertyValue.TrueIn]; trivial

theorem linesSoFar_nil : LinesSoFar source [] ([] : Properties F) :=
  ⟨by rw [LinesTrue]; trivial, fun _ he => nomatch he⟩

/-- The properties put together from the entries of a block. -/
theorem exists_of_mergeInto_block {key : String} {entries : List (SurfaceEntry F)}
    {lineOf : List Char → ℕ} {props props' : Properties F}
    (h : (SurfaceEntry.block key start entries).mergeInto lineOf props = .ok props') :
    ∃ block, mergeEntries lineOf entries [] = .ok block ∧
      addBlock props key block (lineOf start) = .ok props' := by
  rw [SurfaceEntry.mergeInto] at h
  split at h
  · next block hblock => exact ⟨block, hblock, h⟩
  · cases h

theorem exists_of_mergeInto_assigned {key : String} {entries : List (SurfaceEntry F)}
    {lineOf : List Char → ℕ} {props props' : Properties F}
    (h : (SurfaceEntry.assigned key start entries).mergeInto lineOf props = .ok props') :
    ∃ block, mergeEntries lineOf entries [] = .ok block ∧
      props' = assign props key (.block block) (lineOf start) := by
  rw [SurfaceEntry.mergeInto] at h
  split at h
  · next block hblock =>
    cases h
    exact ⟨block, hblock, rfl⟩
  · cases h

mutual

/-- Taking up an entry keeps the lines true. -/
theorem linesSoFar_mergeInto (entry : SurfaceEntry F) {done : List (SurfaceEntry F)}
    {props props' : Properties F} (hplaced : entry.Placed source) (h : LinesSoFar source done props)
    (hmerge : entry.mergeInto (lineAt source) props = .ok props') :
    LinesSoFar source (done ++ [entry]) props' := by
  have htoken := tokenAt_of_tokenStart hplaced.tokenStart
  match entry with
  | .scalar key start value =>
    cases hmerge
    exact linesSoFar_assign h htoken (trueIn_of_isScalar value.2 _)
  | .assigned key start entries =>
    rw [SurfaceEntry.Placed] at hplaced
    obtain ⟨block, hblock, rfl⟩ := exists_of_mergeInto_assigned hmerge
    refine linesSoFar_assign h htoken ?_
    rw [PropertyValue.TrueIn]
    exact ⟨_, rfl, (linesSoFar_mergeEntries entries hplaced.2 linesSoFar_nil hblock).lines⟩
  | .block key start entries =>
    rw [SurfaceEntry.Placed] at hplaced
    obtain ⟨block, hblock, hadd⟩ := exists_of_mergeInto_block hmerge
    exact linesSoFar_addBlock h htoken
      (linesSoFar_mergeEntries entries hplaced.2 linesSoFar_nil hblock).lines hadd

theorem linesSoFar_mergeEntries (entries : List (SurfaceEntry F)) {done : List (SurfaceEntry F)}
    {props props' : Properties F} (hplaced : AllPlaced source entries) (h : LinesSoFar source done props)
    (hmerge : mergeEntries (lineAt source) entries props = .ok props') :
    LinesSoFar source (done ++ entries) props' := by
  match entries with
  | [] =>
    cases hmerge
    rwa [List.append_nil]
  | entry :: entries =>
    rw [AllPlaced] at hplaced
    rw [mergeEntries] at hmerge
    cases hentry : entry.mergeInto (lineAt source) props with
    | error e =>
      rw [hentry] at hmerge
      cases hmerge
    | ok props₁ =>
      rw [hentry] at hmerge
      have hrest := linesSoFar_mergeEntries entries hplaced.2
        (linesSoFar_mergeInto entry hplaced.1 h hentry) hmerge
      rwa [List.append_assoc] at hrest

end

/-! ## Where the entries are -/

section Reading

variable {env : SurfaceEnv F} {s s' : ParserState}

mutual

theorem skipWsFrom_skipWsFrom (cs : List Char) (line : ℕ) :
    skipWsFrom (skipWsFrom cs line).rest (skipWsFrom cs line).line = skipWsFrom cs line := by
  match cs with
  | [] => simp [skipWsFrom]
  | c :: cs =>
    rw [skipWsFrom]
    split_ifs with hnewline hspace hslash
    · exact skipWsFrom_skipWsFrom cs (line + 1)
    · exact skipWsFrom_skipWsFrom cs line
    · exact skipWsFrom_skipCommentFrom cs line
    · rw [skipWsFrom, if_neg hnewline, if_neg hspace, if_neg hslash]

theorem skipWsFrom_skipCommentFrom (cs : List Char) (line : ℕ) :
    skipWsFrom (skipCommentFrom cs line).rest (skipCommentFrom cs line).line = skipCommentFrom cs line := by
  match cs with
  | [] => simp [skipCommentFrom, skipWsFrom]
  | c :: cs =>
    rw [skipCommentFrom]
    split_ifs with hnewline
    · exact skipWsFrom_skipWsFrom cs (line + 1)
    · exact skipWsFrom_skipCommentFrom cs line

end

/-- Behind white space an identifier is at the front. -/
theorem tokenStart_of_parseIdent {key : String} (hs : TrueLine source s)
    (hws : skipWsFrom s.rest s.line = s) (h : parseIdent s = .ok (key, s')) :
    TokenStart source key s.rest := by
  obtain ⟨c, cs, line, hskip, -, rfl, -⟩ := parseIdent_eq_ok.mp h
  rw [hws] at hskip
  rw [hskip, TokenStart, String.toList_ofList]
  rw [hskip] at hs
  exact ⟨List.takeWhile_prefix _, hs.suffix⟩

/-- The results of the parser have the property, and the lines stay true. -/
def ReadsWith {α : Type} (source : List Char) (P : α → Prop) (p : SurfaceParser α) : Prop :=
  ∀ s a s', TrueLine source s → p s = .ok (a, s') → TrueLine source s' ∧ P a

theorem trueLine_parseScalar {v : {v : PropertyValue F // v.isScalar = true}} (hs : TrueLine source s)
    (h : parseScalar env s = .ok (v, s')) : TrueLine source s' := by
  obtain ⟨w, s₁, hvalue, h⟩ := exists_of_bind_ok h
  split_ifs at h with hscalar
  · cases h
    have hws := (keeps_skipWs s () _ hs rfl).1
    rcases parseValue_cases hvalue with ⟨-, hread⟩ | ⟨-, block, -, hblock⟩
    · exact trueLine_of_scalarRead hws hread
    · rw [hblock] at hscalar
      cases hscalar
  · cases h

theorem readsWith_braces {p : SurfaceParser (List (SurfaceEntry F))}
    (hp : ReadsWith source (AllPlaced source) p) : ReadsWith source (AllPlaced source) (braces p) := by
  intro s entries s' hs h
  obtain ⟨u, s₁, hopen, h⟩ := exists_of_bind_ok h
  obtain ⟨entries₁, s₂, hentries, h⟩ := exists_of_bind_ok h
  obtain ⟨u', s₃, hclose, h⟩ := exists_of_bind_ok h
  cases h
  obtain ⟨hs₂, hplaced⟩ := hp s₁ _ s₂ (keeps_expectChar _ s u s₁ hs hopen).1 hentries
  exact ⟨(keeps_expectChar _ s₂ u' _ hs₂ hclose).1, hplaced⟩

theorem readsWith_parseAssigned {p : SurfaceParser (List (SurfaceEntry F))} {key : String}
    {start : List Char} (hp : ReadsWith source (AllPlaced source) p) (htoken : TokenStart source key start) :
    ReadsWith source (SurfaceEntry.Placed source) (parseAssigned env key start p) := by
  intro s entry s' hs h
  obtain ⟨next, s₁, hnext, h⟩ := exists_of_bind_ok h
  cases hnext
  split_ifs at h
  · obtain ⟨block, s₂, hblock, h⟩ := exists_of_bind_ok h
    cases h
    obtain ⟨hs₂, hplaced⟩ := readsWith_braces hp _ _ _ hs hblock
    exact ⟨hs₂, by rw [SurfaceEntry.Placed]; exact ⟨htoken, hplaced⟩⟩
  · obtain ⟨value, s₂, hvalue, h⟩ := exists_of_bind_ok h
    cases h
    exact ⟨trueLine_parseScalar hs hvalue, by rwa [SurfaceEntry.Placed]⟩

/-- **The entries stand where they were read**, each with its key at the front. -/
theorem readsWith_parseEntries (fuel : ℕ) : ReadsWith source (AllPlaced source) (parseEntries env fuel) := by
  induction fuel with
  | zero =>
    intro s entries s' _ h
    cases h
  | succ fuel ih =>
    intro s entries s' hs h
    obtain ⟨u, s₁, hskip, h⟩ := exists_of_bind_ok h
    have hs₁ := (keeps_skipWs s u s₁ hs hskip).1
    have hws : skipWsFrom s₁.rest s₁.line = s₁ := by
      cases hskip
      exact skipWsFrom_skipWsFrom s.rest s.line
    obtain ⟨next, s₂, hnext, h⟩ := exists_of_bind_ok h
    cases hnext
    split_ifs at h
    · cases h
      exact ⟨hs₁, by rw [AllPlaced]; trivial⟩
    · obtain ⟨start, s₃, hstart, h⟩ := exists_of_bind_ok h
      cases hstart
      obtain ⟨key, s₄, hkey, h⟩ := exists_of_bind_ok h
      have htoken := tokenStart_of_parseIdent hs₁ hws hkey
      have hs₄ := (keeps_parseIdent s₁ key s₄ hs₁ hkey).1
      obtain ⟨u₅, s₅, hskip₅, h⟩ := exists_of_bind_ok h
      have hs₅ := (keeps_skipWs s₄ u₅ s₅ hs₄ hskip₅).1
      obtain ⟨sign, s₆, hsign, h⟩ := exists_of_bind_ok h
      cases hsign
      split_ifs at h
      · obtain ⟨u₇, s₇, hadvance, h⟩ := exists_of_bind_ok h
        have hs₇ := (keeps_advance s₅ u₇ s₇ hs₅ hadvance).1
        obtain ⟨entry, s₈, hentry, h⟩ := exists_of_bind_ok h
        obtain ⟨hs₈, hplaced⟩ := readsWith_parseAssigned ih htoken s₇ entry s₈ hs₇ hentry
        obtain ⟨u₉, s₉, hsemicolon, h⟩ := exists_of_bind_ok h
        have hs₉ := (keeps_skipSemicolon s₈ u₉ s₉ hs₈ hsemicolon).1
        obtain ⟨rest, s₁₀, hrest, h⟩ := exists_of_bind_ok h
        cases h
        obtain ⟨hs', hall⟩ := ih s₉ rest s' hs₉ hrest
        exact ⟨hs', by rw [AllPlaced]; exact ⟨hplaced, hall⟩⟩
      · obtain ⟨block, s₇, hblock, h⟩ := exists_of_bind_ok h
        obtain ⟨hs₇, hinner⟩ := readsWith_braces ih s₅ block s₇ hs₅ hblock
        obtain ⟨rest, s₈, hrest, h⟩ := exists_of_bind_ok h
        cases h
        obtain ⟨hs', hall⟩ := ih s₇ rest s' hs₇ hrest
        exact ⟨hs', by rw [AllPlaced, SurfaceEntry.Placed]; exact ⟨⟨htoken, hinner⟩, hall⟩⟩
      · cases h

/-- A resource begins with its type. -/
def ResourceEntry.Placed (source : List Char) (resource : ResourceEntry F) : Prop :=
  TokenStart source resource.resourceType resource.start ∧ AllPlaced source resource.entries

theorem placed_parseResourceEntry {resource : ResourceEntry F} (hs : TrueLine source s)
    (hws : skipWsFrom s.rest s.line = s) (h : parseResourceEntry env s = .ok (resource, s')) :
    TrueLine source s' ∧ resource.Placed source := by
  obtain ⟨start, s₁, hstart, h⟩ := exists_of_bind_ok h
  cases hstart
  obtain ⟨resourceType, s₂, htype, h⟩ := exists_of_bind_ok h
  have htoken := tokenStart_of_parseIdent hs hws htype
  have hs₂ := (keeps_parseIdent s _ s₂ hs htype).1
  obtain ⟨name, s₃, hname, h⟩ := exists_of_bind_ok h
  have hs₃ := (keeps_parseString s₂ _ s₃ hs₂ hname).1
  obtain ⟨u₄, s₄, hopen, h⟩ := exists_of_bind_ok h
  have hs₄ := (keeps_expectChar _ s₃ u₄ s₄ hs₃ hopen).1
  obtain ⟨entries, s₅, hentries, h⟩ := exists_of_bind_ok h
  obtain ⟨hs₅, hall⟩ := readsWith_parseEntries _ s₄ entries s₅ hs₄ hentries
  obtain ⟨u₆, s₆, hclose, h⟩ := exists_of_bind_ok h
  cases h
  exact ⟨(keeps_expectChar _ s₅ u₆ _ hs₅ hclose).1, htoken, hall⟩

theorem placed_parseResourceEntries (fuel : ℕ) : ReadsWith source
    (fun resources : List (ResourceEntry F) => ∀ resource ∈ resources, resource.Placed source)
    (parseResourceEntries env fuel) := by
  induction fuel with
  | zero =>
    intro s entries s' _ h
    cases h
  | succ fuel ih =>
    intro s entries s' hs h
    obtain ⟨u, s₁, hskip, h⟩ := exists_of_bind_ok h
    have hs₁ := (keeps_skipWs s u s₁ hs hskip).1
    have hws : skipWsFrom s₁.rest s₁.line = s₁ := by
      cases hskip
      exact skipWsFrom_skipWsFrom s.rest s.line
    obtain ⟨next, s₂, hnext, h⟩ := exists_of_bind_ok h
    cases hnext
    split_ifs at h
    · cases h
      exact ⟨hs₁, fun _ hmem => nomatch hmem⟩
    · obtain ⟨resource, s₃, hresource, h⟩ := exists_of_bind_ok h
      obtain ⟨hs₃, hplaced⟩ := placed_parseResourceEntry hs₁ hws hresource
      obtain ⟨rest, s₄, hrest, h⟩ := exists_of_bind_ok h
      cases h
      obtain ⟨hs', hall⟩ := ih s₃ rest s' hs₃ hrest
      exact ⟨hs', List.forall_mem_cons.mpr ⟨hplaced, hall⟩⟩

end Reading

/-! ## Files -/

theorem trueLine_start (source : List Char) : TrueLine source ⟨source, 1⟩ :=
  ⟨List.suffix_rfl, by rw [lineAt, Nat.sub_self]⟩

theorem placed_of_entriesOf {env : SurfaceEnv F} {source : String} {entries : List (ResourceEntry F)}
    (h : entriesOf env source = .ok entries) : ∀ resource ∈ entries, resource.Placed source.toList := by
  rw [entriesOf] at h
  cases hread : parseResourceEntries env (source.toList.length + 1) ⟨source.toList, 1⟩ with
  | error e =>
    rw [hread] at h
    cases h
  | ok r =>
    rw [hread] at h
    cases h
    exact (placed_parseResourceEntries _ _ _ _ (trueLine_start _) hread).2

theorem trueLines_of_mergedFrom {entries : List (ResourceEntry F)} {resources : List (ResourceDecl F)}
    (hmerged : List.Forall₂ (MergedFrom (lineAt source)) entries resources)
    (hplaced : ∀ resource ∈ entries, resource.Placed source) : List.Forall₂
    (fun entry resource => TokenAt source resource.resourceType entry.start resource.line ∧
      LinesTrue source resource.properties entry.entries) entries resources := by
  induction hmerged with
  | nil => exact .nil
  | @cons entry resource entries resources hfirst _ ih =>
    obtain ⟨⟨htoken, hall⟩, hrest⟩ := List.forall_mem_cons.mp hplaced
    refine .cons ⟨?_, ?_⟩ (ih hrest)
    · rw [hfirst.resourceType, hfirst.line]
      exact tokenAt_of_tokenStart htoken
    · exact (linesSoFar_mergeEntries entry.entries hall linesSoFar_nil hfirst.properties).lines

theorem trueLines_of_parse {env : SurfaceEnv F} {source path : String} {file : ParsedFile F}
    (h : parse env source path = .ok file) : TrueLines env source file := by
  obtain ⟨entries, hentries, hmerged⟩ := merge_of_parse h
  exact ⟨entries, hentries, trueLines_of_mergedFrom hmerged (placed_of_entriesOf hentries)⟩

/-- **The parser returns a file with true lines or an error**: on every source it ends without a panic
as soon as each loop may make one round for each byte, and with more fuel it does the same. -/
theorem parse_total (env : SurfaceEnv F) (source path : String) :
    ∃ result : Except String (ParsedFile F),
      (∀ more, Cursor.parse ((utf8 source).length + 1 + more) env source path =
        result.mapError Failure.reason) ∧
      ∀ file, result = .ok file → TrueLines env source file :=
  ⟨parse env source path, fun _ => Cursor.parse_eq_mapError env source path (by omega),
    fun _ hfile => trueLines_of_parse hfile⟩

/-- A newline in a comment and one in a string count. -/
example : (Cursor.parse 100 sampleSurface "// é\nvolume \"a\nb\" \x7b pool = \"ssd\" \x7d" "v").toOption.map
    (fun file => file.resources.map fun r => (r.line, r.properties.map Property.line)) =
      some [(2, [3])] := by decide +kernel

end Picloud
