import Picloud.Inference.Engine
import Picloud.Rdf.StorageEvents
import Picloud.Server.ProductGraph

/-!
# Rules as CONSTRUCT queries

Reference: `construct_to_select` and `evaluate_rule` of `picloud-http/src/inference.rs`.

The engine drops everything before the WHERE clause of a rule and selects the variables `?s`, `?p` and
`?o` of what is left. So a rule produces the values of these three variables, whatever its template
says (`selectsTemplate_forall_iff`), and the group must be readable without the declarations before it.
The place of the clause is looked for in an upper-case copy of the text, where it may be another one
(`constructToSelect_eq_none_iff`).

The parser of SPARQL is that of the SPARQL endpoint.
-/

namespace Picloud

open Lib Lib.Sparql

/-! ## Templates -/

/-- What stands in a template: a variable or a constant. -/
inductive TemplateTerm where
  | var (name : String)
  | constant (t : Term)
deriving DecidableEq

/-- A triple pattern of a template. -/
structure TemplateTriple where
  subject : TemplateTerm
  predicate : TemplateTerm
  object : TemplateTerm
deriving DecidableEq

/-- A term as a subject. -/
def termSubject : Term → Option Subject
  | .named n => some (.named n)
  | .blank id => some (.blank id)
  | .triple text => some (.triple text)
  | .literal _ => none

/-- A term as a predicate. -/
def termPredicate : Term → Option NamedNode
  | .named n => some n
  | _ => none

/-- The value of a term of a template in a solution. -/
def TemplateTerm.value (row : Row) : TemplateTerm → Option Term
  | .var name => row.get name
  | .constant t => some t

/-- A triple pattern in a solution: nothing, if a variable has no value or a value stands where it
cannot. -/
def TemplateTriple.instantiate (row : Row) (p : TemplateTriple) : Option Triple := do
  let subject ← (p.subject.value row).bind termSubject
  let predicate ← (p.predicate.value row).bind termPredicate
  let object ← p.object.value row
  return ⟨subject, predicate, object⟩

/-- CONSTRUCT: the template in every solution. -/
def instantiateAll (template : List TemplateTriple) (rows : List Row) : List Triple :=
  (rows.flatMap fun row => template.filterMap (·.instantiate row)).dedup

/-! ## Texts -/

/-- A triple as the engine holds it. -/
def producedOf (t : Triple) : ProducedTriple := ⟨t.subject.text, t.predicate.value, termText t.object⟩

/-- The text of a variable in a solution. -/
def rowText (row : Row) (name : String) : String := ((row.get name).map termText).getD ""

/-- The values of `?s`, `?p` and `?o`, if none of them is empty. -/
def selectedTriple (row : Row) : Option ProducedTriple :=
  if rowText row "s" ≠ "" ∧ rowText row "p" ≠ "" ∧ rowText row "o" ≠ "" then
    some ⟨rowText row "s", rowText row "p", rowText row "o"⟩
  else none

/-- In the solutions, the values of `?s`, `?p` and `?o` are the triples of the template. -/
def SelectsTemplate (template : List TemplateTriple) (rows : List Row) : Prop :=
  ∀ t, (∃ row ∈ rows, selectedTriple row = some t) ↔
    ∃ triple ∈ instantiateAll template rows, producedOf triple = t

/-! ## Queries -/

/-- A CONSTRUCT query: its text in three parts, its template and the pattern of its WHERE clause. -/
structure ConstructQuery where
  /-- The declarations of prefixes. -/
  prologue : String
  /-- CONSTRUCT, the template, and the keyword if it is written. -/
  head : String
  /-- The WHERE clause from its brace on. -/
  group : String
  /-- The clause uses what the prologue declares. -/
  usesPrologue : Bool
  template : List TemplateTriple
  pattern : GraphPattern

namespace ConstructQuery

/-- The text of the query. -/
def text (q : ConstructQuery) : String := q.prologue ++ q.head ++ q.group

/-- SPARQL reads the text as this query, reads the WHERE clause under another form in the same way, and
rejects it there if it uses what has not been declared. -/
structure ReadBy (srv : GraphServer) (q : ConstructQuery) : Prop where
  construct : srv.parse q.text = .ok ⟨none, q.pattern, .construct (instantiateAll q.template)⟩
  select : q.usesPrologue = false →
    srv.parse ("SELECT ?s ?p ?o " ++ q.group) = .ok ⟨none, q.pattern, .select ["s", "p", "o"]⟩
  undeclared : q.usesPrologue = true → ∃ e, srv.parse ("SELECT ?s ?p ?o " ++ q.group) = .error e

/-- The clause is found: five bytes behind the place that the first WHERE has in capital letters, the text
goes on to the brace of the clause, with no brace before it. -/
def FindsGroup (env : InferenceEnv) (q : ConstructQuery) : Prop :=
  ∃ upper rest before gap tail, env.toUppercase q.text = upper ++ "WHERE" ++ rest ∧
    ¬ utf8 "WHERE" <:+: utf8 upper ++ utf8 "WHER" ∧
    q.prologue ++ q.head = before ++ gap ∧ (utf8 before).length = (utf8 upper).length + 5 ∧
    '\x7b' ∉ gap.toList ∧ q.group = "\x7b" ++ tail

/-- The solutions of the WHERE clause in a graph. -/
def solutions (q : ConstructQuery) (store : Store) : Except String (List Row) :=
  q.pattern.eval (datasetOf store none) (datasetOf store none).default []

/-- A rule with this query produces the triples that CONSTRUCT gives for some solutions. -/
def Computes (env : InferenceEnv) (srv : GraphServer) (store : Store) (rule : LoadedRule)
    (q : ConstructQuery) (rows : List Row) : Prop :=
  ∀ world : InferenceWorld, world.query = executeQuery srv store →
    ∃ triples, producedTriples env { rule with constructQuery := q.text } world = some (.ok triples) ∧
      ∀ t, t ∈ triples ↔ ∃ triple ∈ instantiateAll q.template rows, producedOf triple = t

end ConstructQuery

/-! ## The text of the SELECT query -/

/-- A text can be cut between two texts. -/
theorem sliceFrom_append (a b : String) : sliceFrom (a ++ b) (utf8 a).length = some b := by
  rw [sliceFrom, utf8_append, if_pos (by simp), List.drop_left, ofUtf8_utf8]

/-- A text is found at its first occurrence. -/
theorem findText_append {a pat b : String} (hpat : utf8 pat ≠ [])
    (h : ¬ utf8 pat <:+: utf8 a ++ (utf8 pat).dropLast) :
    findText (a ++ pat ++ b) pat = some (utf8 a).length := by
  rw [findText, utf8_append, utf8_append, breakOn_append hpat h]
  rfl

theorem utf8_brace : utf8 "\x7b" = [123] := by decide +kernel

/-- The first brace of a text. -/
theorem findText_brace {gap tail : String} (h : '\x7b' ∉ gap.toList) :
    findText (gap ++ "\x7b" ++ tail) "\x7b" = some (utf8 gap).length := by
  refine findText_append (by rw [utf8_brace]; simp) ?_
  rw [utf8_brace, List.dropLast_singleton, List.append_nil, List.singleton_infix_iff]
  exact notMem_utf8_of_ascii (by decide) h

theorem findText_brace_eq_none {s : String} (h : '\x7b' ∉ s.toList) : findText s "\x7b" = none := by
  rw [findText, breakOn_eq_none, Option.map_none]
  rw [utf8_brace, List.singleton_infix_iff]
  exact notMem_utf8_of_ascii (by decide) h

/-- A text can be cut at its first brace. -/
theorem sliceFrom_brace {s : String} {n : ℕ} (h : findText s "\x7b" = some n) :
    ∃ rest, sliceFrom s n = some rest := by
  by_cases hbrace : '\x7b' ∈ s.toList
  · obtain ⟨gap, tail, hs, hgap⟩ := List.eq_append_cons_of_mem hbrace
    have hsplit : s = String.ofList gap ++ "\x7b" ++ String.ofList tail := by
      apply String.toList_inj.mp
      simp [hs]
    rw [hsplit, findText_brace (by simpa using hgap), Option.some.injEq] at h
    rw [hsplit, String.append_assoc, ← h]
    exact ⟨_, sliceFrom_append _ _⟩
  · rw [findText_brace_eq_none hbrace] at h
    cases h

/-- The rewriting panics exactly when the place behind the first WHERE of the upper-case copy is no
place of the text: beyond its end, or inside a character. -/
theorem constructToSelect_eq_none_iff {env : InferenceEnv} {text : String} :
    constructToSelect env text = none ↔
      ∃ n, findText (env.toUppercase text) "WHERE" = some n ∧ sliceFrom text (n + 5) = none := by
  rw [constructToSelect]
  cases hwhere : findText (env.toUppercase text) "WHERE" with
  | none => simp
  | some n =>
    cases hslice : sliceFrom text (n + 5) with
    | none => simp [hslice]
    | some afterWhere =>
      simp only [Option.bind_some, Option.some.injEq, exists_eq_left', hslice, reduceCtorEq,
        iff_false]
      cases hbrace : findText afterWhere "\x7b" with
      | none => simp
      | some bracePos =>
        obtain ⟨rest, hrest⟩ := sliceFrom_brace hbrace
        simp [hrest]

/-- If the clause is found, the query selects from it. -/
theorem constructToSelect_of_findsGroup {env : InferenceEnv} {q : ConstructQuery}
    (h : q.FindsGroup env) :
    constructToSelect env q.text = some ("SELECT ?s ?p ?o " ++ q.group) := by
  obtain ⟨upper, rest, before, gap, tail, hupper, hfirst, hhead, hlength, hgap, hgroup⟩ := h
  have hdrop : (utf8 "WHERE").dropLast = utf8 "WHER" := by decide +kernel
  have hwhere : findText (env.toUppercase q.text) "WHERE" = some (utf8 upper).length := by
    rw [hupper, findText_append (by decide +kernel) (by rwa [hdrop])]
  have hslice : sliceFrom q.text ((utf8 upper).length + 5) = some (gap ++ q.group) := by
    rw [ConstructQuery.text, hhead, String.append_assoc, ← hlength]
    exact sliceFrom_append _ _
  have hbrace : findText (gap ++ q.group) "\x7b" = some (utf8 gap).length := by
    rw [hgroup, ← String.append_assoc]
    exact findText_brace hgap
  rw [constructToSelect, hwhere]
  simp only [hslice, Option.bind_some, hbrace, sliceFrom_append, Option.map_some]

/-! ## The triples of a rule -/

variable {name : String} {names : List String} {template : List TemplateTriple} {row : Row}
  {length : ℕ} {t : Term} {p : TemplateTriple} {triple : Triple}

/-- The text of a variable is read from its binding. -/
theorem extractBindingValue_rowToJson (h : name ∈ names) (row : Row) :
    extractBindingValue (rowToJson names row) name = rowText row name := by
  rw [extractBindingValue, rowText, get?_rowToJson h]
  cases row.get name with
  | none => rfl
  | some t => cases t <;> rfl

theorem bindingTriple_rowToJson (row : Row) :
    bindingTriple (rowToJson ["s", "p", "o"] row) = selectedTriple row := by
  rw [bindingTriple, selectedTriple, extractBindingValue_rowToJson (by simp),
    extractBindingValue_rowToJson (by simp), extractBindingValue_rowToJson (by simp)]

/-- What the query of the engine answers, if the clause can be read without the prologue. -/
theorem executeQuery_select {srv : GraphServer} {store : Store} {q : ConstructQuery} {rows : List Row}
    (hread : q.ReadBy srv) (halone : q.usesPrologue = false)
    (hrows : q.solutions store = .ok rows) :
    executeQuery srv store ("SELECT ?s ?p ?o " ++ q.group) =
      .ok (rows.map (rowToJson ["s", "p", "o"])) := by
  have heval : (Query.eval store ⟨none, q.pattern, .select ["s", "p", "o"]⟩) =
      .ok (.solutions ["s", "p", "o"] rows) := by
    rw [ConstructQuery.solutions] at hrows
    rw [Query.eval]
    dsimp only
    rw [hrows]
    rfl
  rw [executeQuery, runQuery, hread.select halone]
  dsimp only
  rw [heval]
  rfl

/-! ## The templates that are selected -/

/-- The template that the engine has in mind. -/
def spoTemplate : TemplateTriple := ⟨.var "s", .var "p", .var "o"⟩

/-- Every variable of the template, and `?s`, `?p` and `?o`, stand for IRIs. -/
def BindsIris (template : List TemplateTriple) (row : Row) : Prop :=
  ∀ p ∈ spoTemplate :: template, ∀ name, p.subject = .var name ∨ p.predicate = .var name ∨
    p.object = .var name → ∃ iri, iri ≠ "" ∧ row.get name = some (.named ⟨iri⟩)

theorem mem_instantiateAll {rows : List Row} {t : Triple} :
    t ∈ instantiateAll template rows ↔
      ∃ row ∈ rows, ∃ p ∈ template, p.instantiate row = some t := by
  simp [instantiateAll]

/-- In a solution by IRIs, `?s ?p ?o` is what is selected. -/
theorem selectedTriple_of_bindsIris (h : BindsIris template row) :
    ∃ t, spoTemplate.instantiate row = some t ∧
      selectedTriple row = some (producedOf t) := by
  have hbound : ∀ name ∈ ["s", "p", "o"], ∃ iri, iri ≠ "" ∧ row.get name = some (.named ⟨iri⟩) := by
    intro name hname
    refine h spoTemplate List.mem_cons_self name ?_
    simpa [spoTemplate, eq_comm] using hname
  obtain ⟨s, hs, hsget⟩ := hbound "s" (by simp)
  obtain ⟨p, hp, hpget⟩ := hbound "p" (by simp)
  obtain ⟨o, ho, hoget⟩ := hbound "o" (by simp)
  refine ⟨⟨.named ⟨s⟩, ⟨p⟩, .named ⟨o⟩⟩, ?_, ?_⟩
  · simp [spoTemplate, TemplateTriple.instantiate, TemplateTerm.value, hsget, hpget, hoget, termSubject,
      termPredicate]
  · simp [selectedTriple, rowText, hsget, hpget, hoget, termText, hs, hp, ho, producedOf, Subject.text]

/-- A row that binds some variables to IRIs of their own, longer than a given length. -/
def freshRow (length : ℕ) (names : List String) : Row :=
  names.map fun name => (name, .named ⟨String.ofList (List.replicate (length + 1) 'x' ++ name.toList)⟩)

theorem get_freshRow (h : name ∈ names) :
    (freshRow length names).get name =
      some (.named ⟨String.ofList (List.replicate (length + 1) 'x' ++ name.toList)⟩) := by
  induction names with
  | nil => cases h
  | cons n names ih =>
    by_cases hn : n = name
    · subst hn
      simp [freshRow, Assoc.get]
    · have hrest := ih ((List.mem_cons.mp h).resolve_left (Ne.symm hn))
      simpa [freshRow, Assoc.get, hn] using hrest

/-- The variables of a term. -/
def TemplateTerm.vars : TemplateTerm → List String
  | .var name => [name]
  | .constant _ => []

/-- The length of a constant. -/
def TemplateTerm.size : TemplateTerm → ℕ
  | .var _ => 0
  | .constant t => (termText t).length

/-- Only the variable itself has its own IRI for a value. -/
theorem eq_var_of_value {term : TemplateTerm} (hvars : ∀ n ∈ term.vars, n ∈ names)
    (hsize : term.size ≤ length) (hvalue : term.value (freshRow length names) = some t)
    (htext : termText t = String.ofList (List.replicate (length + 1) 'x' ++ name.toList)) :
    term = .var name := by
  cases term with
  | var n =>
    rw [TemplateTerm.value, get_freshRow (hvars n List.mem_cons_self), Option.some.injEq] at hvalue
    rw [← hvalue, termText, String.ofList_inj, List.append_cancel_left_eq, String.toList_inj] at htext
    rw [htext]
  | constant t' =>
    rw [TemplateTerm.value, Option.some.injEq] at hvalue
    rw [TemplateTerm.size, hvalue, htext] at hsize
    simp at hsize
    omega

theorem exists_size_le (terms : List TemplateTerm) : ∃ length, ∀ term ∈ terms, term.size ≤ length := by
  induction terms with
  | nil => exact ⟨0, fun _ h => absurd h List.not_mem_nil⟩
  | cons term terms ih =>
    obtain ⟨length, hlength⟩ := ih
    exact ⟨max term.size length, List.forall_mem_cons.mpr
      ⟨le_max_left _ _, fun t ht => (hlength t ht).trans (le_max_right _ _)⟩⟩

/-- The terms of a triple pattern. -/
def TemplateTriple.terms (p : TemplateTriple) : List TemplateTerm := [p.subject, p.predicate, p.object]

/-- The constants of the pattern may stand where they do. -/
def TemplateTriple.Stands (p : TemplateTriple) : Prop :=
  (∀ t, p.subject = .constant t → (termSubject t).isSome) ∧
    ∀ t, p.predicate = .constant t → (termPredicate t).isSome

theorem TemplateTriple.instantiate_eq_some_iff :
    p.instantiate row = some triple ↔ ∃ s pr o, p.subject.value row = some s ∧
      termSubject s = some triple.subject ∧ p.predicate.value row = some pr ∧
      termPredicate pr = some triple.predicate ∧ p.object.value row = some o ∧ o = triple.object := by
  obtain ⟨subject, predicate, object⟩ := triple
  simp only [instantiate, Option.bind_eq_bind, Option.bind_eq_some_iff, Option.pure_def,
    Option.some.injEq, Triple.mk.injEq]
  constructor
  · rintro ⟨_, ⟨s, hs, hs'⟩, _, ⟨pr, hpr, hpr'⟩, o, ho, rfl, rfl, rfl⟩
    exact ⟨s, pr, o, hs, hs', hpr, hpr', ho, rfl⟩
  · rintro ⟨s, pr, o, hs, hs', hpr, hpr', ho, rfl⟩
    exact ⟨_, ⟨s, hs, hs'⟩, _, ⟨pr, hpr, hpr'⟩, o, ho, rfl, rfl, rfl⟩

theorem termText_of_subject {subject : Subject} (h : termSubject t = some subject) :
    termText t = subject.text := by
  cases t <;> cases h <;> rfl

theorem termText_of_predicate {n : NamedNode} (h : termPredicate t = some n) :
    termText t = n.value := by
  cases t <;> cases h
  rfl

/-- A pattern that has an instance may stand as it does. -/
theorem TemplateTriple.stands_of_instantiate (h : p.instantiate row = some triple) : p.Stands := by
  obtain ⟨s, pr, o, hs, hs', hpr, hpr', -, -⟩ := instantiate_eq_some_iff.mp h
  refine ⟨fun t ht => ?_, fun t ht => ?_⟩
  · rw [ht, TemplateTerm.value, Option.some.injEq] at hs
    rw [hs, hs']
    rfl
  · rw [ht, TemplateTerm.value, Option.some.injEq] at hpr
    rw [hpr, hpr']
    rfl

/-- In a solution by IRIs, a pattern that may stand as it does has an instance. -/
theorem TemplateTriple.exists_instantiate (hbinds : BindsIris template row) (hp : p ∈ template)
    (hstands : p.Stands) :
    ∃ triple, p.instantiate row = some triple := by
  have hbound : ∀ name, p.subject = .var name ∨ p.predicate = .var name ∨ p.object = .var name →
      ∃ iri, row.get name = some (.named ⟨iri⟩) := fun name hname => by
    obtain ⟨iri, -, hget⟩ := hbinds p (List.mem_cons_of_mem _ hp) name hname
    exact ⟨iri, hget⟩
  have hsubject : ∃ s subject, p.subject.value row = some s ∧ termSubject s = some subject := by
    cases hs : p.subject with
    | var name =>
      obtain ⟨iri, hget⟩ := hbound name (Or.inl hs)
      exact ⟨_, _, hget, rfl⟩
    | constant t =>
      obtain ⟨subject, hsubject⟩ := Option.isSome_iff_exists.mp (hstands.1 t hs)
      exact ⟨t, subject, rfl, hsubject⟩
  have hpredicate : ∃ pr n, p.predicate.value row = some pr ∧ termPredicate pr = some n := by
    cases hpr : p.predicate with
    | var name =>
      obtain ⟨iri, hget⟩ := hbound name (Or.inr (Or.inl hpr))
      exact ⟨_, _, hget, rfl⟩
    | constant t =>
      obtain ⟨n, hn⟩ := Option.isSome_iff_exists.mp (hstands.2 t hpr)
      exact ⟨t, n, rfl, hn⟩
  have hobject : ∃ o, p.object.value row = some o := by
    cases ho : p.object with
    | var name =>
      obtain ⟨iri, hget⟩ := hbound name (Or.inr (Or.inr ho))
      exact ⟨_, hget⟩
    | constant t => exact ⟨t, rfl⟩
  obtain ⟨s, subject, hs, hs'⟩ := hsubject
  obtain ⟨pr, n, hpr, hpr'⟩ := hpredicate
  obtain ⟨o, ho⟩ := hobject
  exact ⟨⟨subject, n, o⟩, instantiate_eq_some_iff.mpr ⟨s, pr, o, hs, hs', hpr, hpr', ho, rfl⟩⟩

/-- In the fresh row, only `?s ?p ?o` has its own instance. -/
theorem TemplateTriple.eq_spoTemplate {triple' : Triple}
    (hspo : ∀ term ∈ spoTemplate.terms, ∀ n ∈ term.vars, n ∈ names)
    (hvars : ∀ term ∈ p.terms, ∀ n ∈ term.vars, n ∈ names)
    (hsize : ∀ term ∈ p.terms, term.size ≤ length)
    (h : p.instantiate (freshRow length names) = some triple)
    (h' : spoTemplate.instantiate (freshRow length names) = some triple')
    (heq : producedOf triple = producedOf triple') : p = spoTemplate := by
  obtain ⟨s, pr, o, hs, hs', hpr, hpr', ho, rfl⟩ := instantiate_eq_some_iff.mp h
  obtain ⟨s', pr', o', hss, hss', hpp, hpp', hoo, rfl⟩ := instantiate_eq_some_iff.mp h'
  simp only [producedOf, ProducedTriple.mk.injEq, ← termText_of_subject hs',
    ← termText_of_subject hss', ← termText_of_predicate hpr', ← termText_of_predicate hpp'] at heq
  have hterm : ∀ term ∈ p.terms, ∀ {name : String} {t t' : Term},
      TemplateTerm.var name ∈ spoTemplate.terms → term.value (freshRow length names) = some t →
      (TemplateTerm.var name).value (freshRow length names) = some t' → termText t = termText t' →
      term = .var name := by
    intro term hterm name t t' hname hvalue hvalue' htext
    rw [TemplateTerm.value, get_freshRow (hspo _ hname name List.mem_cons_self),
      Option.some.injEq] at hvalue'
    rw [← hvalue', termText] at htext
    exact eq_var_of_value (hvars term hterm) (hsize term hterm) hvalue htext
  obtain ⟨subject, predicate, object⟩ := p
  have hsubject : subject = .var "s" :=
    hterm subject (by simp [terms]) (by simp [terms, spoTemplate]) hs hss heq.1
  have hpredicate : predicate = .var "p" :=
    hterm predicate (by simp [terms]) (by simp [terms, spoTemplate]) hpr hpp heq.2.1
  have hobject : object = .var "o" :=
    hterm object (by simp [terms]) (by simp [terms, spoTemplate]) ho hoo heq.2.2
  rw [hsubject, hpredicate, hobject, spoTemplate]

/-- The engine selects a template in all solutions by IRIs exactly when the template has `?s ?p ?o`, and
nothing else that may stand as it does. -/
theorem selectsTemplate_forall_iff (template : List TemplateTriple) :
    (∀ rows, (∀ row ∈ rows, BindsIris template row) → SelectsTemplate template rows) ↔
      spoTemplate ∈ template ∧ ∀ p ∈ template, p.Stands → p = spoTemplate := by
  constructor
  · intro hselects
    -- one solution, in which every variable has an IRI of its own
    obtain ⟨length, hlength⟩ := exists_size_le ((spoTemplate :: template).flatMap TemplateTriple.terms)
    obtain ⟨names, hnames⟩ : ∃ names, names = ((spoTemplate :: template).flatMap
      TemplateTriple.terms).flatMap TemplateTerm.vars := ⟨_, rfl⟩
    have hvars : ∀ p ∈ spoTemplate :: template, ∀ term ∈ p.terms, ∀ n ∈ term.vars, n ∈ names := by
      intro p hp term hterm n hn
      rw [hnames]
      exact List.mem_flatMap.mpr ⟨term, List.mem_flatMap.mpr ⟨p, hp, hterm⟩, hn⟩
    have hsize : ∀ p ∈ spoTemplate :: template, ∀ term ∈ p.terms, term.size ≤ length :=
      fun p hp term hterm => hlength term (List.mem_flatMap.mpr ⟨p, hp, hterm⟩)
    have hbinds : BindsIris template (freshRow length names) := by
      intro p hp name hname
      refine ⟨_, ?_, get_freshRow (hvars p hp (.var name) ?_ name List.mem_cons_self)⟩
      · simp [← String.toList_inj, List.replicate_succ]
      · rcases hname with h | h | h <;> simp [TemplateTriple.terms, h]
    have hsame : ∀ p ∈ template, ∀ triple triple', p.instantiate (freshRow length names) = some triple →
        spoTemplate.instantiate (freshRow length names) = some triple' →
        producedOf triple = producedOf triple' → p = spoTemplate := fun p hp _ _ =>
      TemplateTriple.eq_spoTemplate (hvars spoTemplate List.mem_cons_self)
        (hvars p (List.mem_cons_of_mem _ hp)) (hsize p (List.mem_cons_of_mem _ hp))
    have hrow := hselects [freshRow length names] (by simpa using hbinds)
    obtain ⟨t, hinstance, hselected⟩ := selectedTriple_of_bindsIris hbinds
    constructor
    · obtain ⟨triple, htriple, heq⟩ := (hrow (producedOf t)).mp ⟨_, List.mem_cons_self, hselected⟩
      obtain ⟨row, hmem, p, hp, hinstance'⟩ := mem_instantiateAll.mp htriple
      rw [List.mem_singleton.mp hmem] at hinstance'
      exact hsame p hp triple t hinstance' hinstance heq ▸ hp
    · intro p hp hstands
      obtain ⟨triple, hinstance'⟩ := TemplateTriple.exists_instantiate hbinds hp hstands
      obtain ⟨row, hmem, hselected'⟩ := (hrow (producedOf triple)).mpr
        ⟨triple, mem_instantiateAll.mpr ⟨_, List.mem_cons_self, p, hp, hinstance'⟩, rfl⟩
      rw [List.mem_singleton.mp hmem, hselected, Option.some.injEq] at hselected'
      exact hsame p hp triple t hinstance' hinstance hselected'.symm
  · rintro ⟨hspo, hall⟩ rows hrows t
    constructor
    · rintro ⟨row, hrow, hselected⟩
      obtain ⟨triple, hinstance, hselected'⟩ := selectedTriple_of_bindsIris (hrows row hrow)
      rw [hselected', Option.some.injEq] at hselected
      exact ⟨triple, mem_instantiateAll.mpr ⟨row, hrow, spoTemplate, hspo, hinstance⟩, hselected⟩
    · rintro ⟨triple, htriple, rfl⟩
      obtain ⟨row, hrow, p, hp, hinstance⟩ := mem_instantiateAll.mp htriple
      obtain ⟨triple', hinstance', hselected⟩ := selectedTriple_of_bindsIris (hrows row hrow)
      rw [hall p hp (TemplateTriple.stands_of_instantiate hinstance), hinstance',
        Option.some.injEq] at hinstance
      exact ⟨row, hrow, hinstance ▸ hselected⟩

/-- **A rule computes its CONSTRUCT query exactly when it selects the template.** The rewriting panics
exactly when the place behind the first WHERE of the upper-case copy is no place of the text. If the
clause is found, the triples of the rule are those of CONSTRUCT if and only if the clause uses no
declaration of the prologue and in its solutions the values of `?s`, `?p` and `?o` are the triples of
the template; and in all solutions by IRIs they are those exactly when the template is `?s ?p ?o`. -/
theorem computes_iff {env : InferenceEnv} {srv : GraphServer} {store : Store} {q : ConstructQuery}
    {rows : List Row} (rule : LoadedRule)
    (hread : q.ReadBy srv) (hrows : q.solutions store = .ok rows) :
    (∀ text, constructToSelect env text = none ↔
      ∃ n, findText (env.toUppercase text) "WHERE" = some n ∧ sliceFrom text (n + 5) = none) ∧
    (q.FindsGroup env → (q.Computes env srv store rule rows ↔
      q.usesPrologue = false ∧ SelectsTemplate q.template rows)) ∧
    ((∀ rows, (∀ row ∈ rows, BindsIris q.template row) → SelectsTemplate q.template rows) ↔
      spoTemplate ∈ q.template ∧ ∀ p ∈ q.template, p.Stands → p = spoTemplate) := by
  refine ⟨fun text => constructToSelect_eq_none_iff, fun hfinds => ?_,
    selectsTemplate_forall_iff q.template⟩
  have hrewrite := constructToSelect_of_findsGroup hfinds
  cases halone : q.usesPrologue with
  | true =>
    -- the group alone is rejected, and the rule ends in an error
    obtain ⟨e, he⟩ := hread.undeclared halone
    refine iff_of_false (fun hcomputes => ?_) (by simp)
    obtain ⟨triples, hproduced, -⟩ := hcomputes
      ⟨executeQuery srv store, fun _ => .ok (), .ok (), fun _ => (0, 0, 0), (0, 0, 0)⟩ rfl
    have herror : executeQuery srv store ("SELECT ?s ?p ?o " ++ q.group) =
        .error (.internal ("SPARQL query failed: " ++ e)) := by
      rw [executeQuery, runQuery, he]
      rfl
    rw [producedTriples, hrewrite, Option.map_some] at hproduced
    dsimp only at hproduced
    rw [herror] at hproduced
    cases hproduced
  | false =>
    have hproduced : ∀ world : InferenceWorld, world.query = executeQuery srv store →
        producedTriples env { rule with constructQuery := q.text } world =
          some (.ok (rows.filterMap selectedTriple).dedup) := by
      intro world hworld
      rw [producedTriples, hrewrite, Option.map_some, hworld, executeQuery_select hread halone hrows,
        Except.map, List.filterMap_map]
      have hbinding : bindingTriple ∘ rowToJson ["s", "p", "o"] = selectedTriple :=
        funext bindingTriple_rowToJson
      rw [hbinding]
    have hmem : ∀ t, t ∈ (rows.filterMap selectedTriple).dedup ↔
        ∃ row ∈ rows, selectedTriple row = some t := by
      intro t
      rw [List.mem_dedup, List.mem_filterMap]
    constructor
    · intro hcomputes
      obtain ⟨triples, htriples, hall⟩ := hcomputes
        ⟨executeQuery srv store, fun _ => .ok (), .ok (), fun _ => (0, 0, 0), (0, 0, 0)⟩ rfl
      rw [hproduced _ rfl] at htriples
      cases htriples
      exact ⟨rfl, fun t => (hmem t).symm.trans (hall t)⟩
    · rintro ⟨-, hselects⟩ world hworld
      exact ⟨_, hproduced world hworld, fun t => (hmem t).trans (hselects t)⟩

/-! ## Two rules -/

/-- Capital letters, for ASCII and two letters more. -/
def capitals (c : Char) : List Char :=
  if c = 'ŉ' then ['ʼ', 'N'] else if c = 'é' then ['É'] else [c.toUpper]

/-- An environment that knows these letters. -/
def capitalsEnv : InferenceEnv where
  iris := ⟨"picloud.local"⟩
  toUppercase := fun s => String.ofList (s.toList.flatMap capitals)
  iterate := id
  iterate_perm := List.Perm.refl

/-- A server that knows one rule, with and without its head. -/
def serverFor (q : ConstructQuery) : GraphServer where
  iris := ⟨"picloud.local"⟩
  validate := none
  hasProjector := true
  parse := fun text =>
    if text = q.text then .ok ⟨none, q.pattern, .construct (instantiateAll q.template)⟩
    else if text = "SELECT ?s ?p ?o " ++ q.group ∧ q.usesPrologue = false then
      .ok ⟨none, q.pattern, .select ["s", "p", "o"]⟩
    else .error "unexpected token"
  jsonText := fun _ => ""
  prettyText := fun _ => ""
  turtleText := fun _ => .error ""

theorem readBy_serverFor {q : ConstructQuery} (h : "SELECT ?s ?p ?o " ++ q.group ≠ q.text) :
    q.ReadBy (serverFor q) where
  construct := if_pos rfl
  select := fun halone => (if_neg h).trans (if_pos ⟨rfl, halone⟩)
  undeclared := fun huses => ⟨_, (if_neg h).trans (if_neg fun hand => by simp [huses] at hand)⟩

/-- A graph in which alice belongs to a group. -/
def memberStore : Store :=
  [⟨.named ⟨"https://picloud.local/users/alice"⟩, ⟨"https://picloud.local/ontology#memberOf"⟩,
    .named ⟨"https://picloud.local/groups/backend"⟩, .default⟩]

/-- The rule that produces what there is. -/
def copyQuery : ConstructQuery where
  prologue := ""
  head := "CONSTRUCT \x7b ?s ?p ?o \x7d WHERE "
  group := "\x7b ?s ?p ?o \x7d"
  usesPrologue := false
  template := [spoTemplate]
  pattern := .basic fun _ active => active.map fun t =>
    [("s", t.subject.toTerm), ("p", .named t.predicate), ("o", t.object)]

/-- The rule that makes users members of their groups. -/
def memberQuery : ConstructQuery where
  prologue := ""
  head := "CONSTRUCT \x7b ?group <https://picloud.local/ontology#hasMember> ?user \x7d WHERE "
  group := "\x7b ?user <https://picloud.local/ontology#memberOf> ?group \x7d"
  usesPrologue := false
  template := [⟨.var "group", .constant (.named ⟨hasMemberPred⟩), .var "user"⟩]
  pattern := .basic fun _ active => active.filterMap fun t =>
    if t.predicate.value = "https://picloud.local/ontology#memberOf" then
      some [("user", t.subject.toTerm), ("group", t.object)]
    else none

/-- A rule with the text of a query. -/
def ruleOf (q : ConstructQuery) : LoadedRule where
  iri := ⟨"https://picloud.local/inference-rules/members"⟩
  name := "members"
  scope := "platform"
  trigger := "event"
  triggerEvents := ["TagAdded"]
  reconciliation := true
  constructQuery := q.text

/-- The first rule computes its query. -/
theorem computes_copyQuery : copyQuery.Computes capitalsEnv (serverFor copyQuery) memberStore
    (ruleOf copyQuery) [[("s", .named ⟨"https://picloud.local/users/alice"⟩),
      ("p", .named ⟨"https://picloud.local/ontology#memberOf"⟩),
      ("o", .named ⟨"https://picloud.local/groups/backend"⟩)]] := by
  have hfinds : copyQuery.FindsGroup capitalsEnv := by
    refine ⟨"CONSTRUCT \x7b ?S ?P ?O \x7d ", " \x7b ?S ?P ?O \x7d", "CONSTRUCT \x7b ?s ?p ?o \x7d WHERE", " ",
      " ?s ?p ?o \x7d", ?_, ?_, ?_, ?_, ?_, ?_⟩ <;> decide +kernel
  have hrows : copyQuery.solutions memberStore = .ok [[("s", .named ⟨"https://picloud.local/users/alice"⟩),
      ("p", .named ⟨"https://picloud.local/ontology#memberOf"⟩),
      ("o", .named ⟨"https://picloud.local/groups/backend"⟩)]] := rfl
  obtain ⟨-, hcomputes, htemplate⟩ := @computes_iff capitalsEnv _ _ _ _ (ruleOf copyQuery)
    (readBy_serverFor (by decide +kernel)) hrows
  refine (hcomputes hfinds).mpr ⟨rfl, ?_⟩
  have hspo : spoTemplate ∈ [spoTemplate] ∧ ∀ p ∈ [spoTemplate], p.Stands → p = spoTemplate :=
    ⟨List.mem_cons_self, fun p hp _ => List.mem_singleton.mp hp⟩
  refine htemplate.mpr hspo _ fun row hrow => ?_
  rw [List.mem_singleton] at hrow
  subst hrow
  intro p hp name hname
  have hp : p = spoTemplate := by simpa [copyQuery] using hp
  subst hp
  have hname : name = "s" ∨ name = "p" ∨ name = "o" := by
    simpa [spoTemplate, eq_comm] using hname
  rcases hname with rfl | rfl | rfl
  · exact ⟨_, by decide, rfl⟩
  · exact ⟨_, by decide, rfl⟩
  · exact ⟨_, by decide, rfl⟩

/-- The second rule produces nothing, where CONSTRUCT gives a member. And a rule with a letter that is
longer in capitals makes the engine panic. -/
theorem not_computes_memberQuery :
    memberQuery.ReadBy (serverFor memberQuery) ∧
    memberQuery.solutions memberStore = .ok [[("user", .named ⟨"https://picloud.local/users/alice"⟩),
      ("group", .named ⟨"https://picloud.local/groups/backend"⟩)]] ∧
    (∃ triple ∈ instantiateAll memberQuery.template
        [[("user", .named ⟨"https://picloud.local/users/alice"⟩),
          ("group", .named ⟨"https://picloud.local/groups/backend"⟩)]],
      producedOf triple = ⟨"https://picloud.local/groups/backend", hasMemberPred,
        "https://picloud.local/users/alice"⟩) ∧
    (∀ world : InferenceWorld, world.query = executeQuery (serverFor memberQuery) memberStore →
      producedTriples capitalsEnv (ruleOf memberQuery) world = some (.ok [])) ∧
    ¬ memberQuery.Computes capitalsEnv (serverFor memberQuery) memberStore (ruleOf memberQuery)
      [[("user", .named ⟨"https://picloud.local/users/alice"⟩),
        ("group", .named ⟨"https://picloud.local/groups/backend"⟩)]] ∧
    constructToSelect capitalsEnv "CONSTRUCT \x7b ?s ?p \"ŉŉ\" \x7d WHERE#é\n\x7b ?s ?p ?o \x7d" =
      none := by
  have hread : memberQuery.ReadBy (serverFor memberQuery) := readBy_serverFor (by decide +kernel)
  have hmember : ∃ triple ∈ instantiateAll memberQuery.template
        [[("user", .named ⟨"https://picloud.local/users/alice"⟩),
          ("group", .named ⟨"https://picloud.local/groups/backend"⟩)]],
      producedOf triple = ⟨"https://picloud.local/groups/backend", hasMemberPred,
        "https://picloud.local/users/alice"⟩ := by decide +kernel
  have hnothing : ∀ world : InferenceWorld,
      world.query = executeQuery (serverFor memberQuery) memberStore →
        producedTriples capitalsEnv (ruleOf memberQuery) world = some (.ok []) := by
    intro world hworld
    have hrewrite : constructToSelect capitalsEnv (ruleOf memberQuery).constructQuery =
        some ("SELECT ?s ?p ?o " ++ memberQuery.group) := by decide +kernel
    rw [producedTriples, hrewrite, Option.map_some, hworld, executeQuery_select hread rfl rfl]
    decide +kernel
  refine ⟨hread, rfl, hmember, hnothing, fun hcomputes => ?_, by decide +kernel⟩
  obtain ⟨triples, htriples, hall⟩ := hcomputes
    ⟨executeQuery (serverFor memberQuery) memberStore, fun _ => .ok (), .ok (), fun _ => (0, 0, 0),
      (0, 0, 0)⟩ rfl
  have hempty := hnothing ⟨executeQuery (serverFor memberQuery) memberStore, fun _ => .ok (), .ok (),
    fun _ => (0, 0, 0), (0, 0, 0)⟩ rfl
  have heq : some (Except.ok triples) = some (Except.ok []) := htriples.symm.trans hempty
  cases heq
  obtain ⟨triple, htriple, -⟩ := hmember
  exact absurd ((hall (producedOf triple)).mpr ⟨triple, htriple, rfl⟩) List.not_mem_nil

end Picloud
