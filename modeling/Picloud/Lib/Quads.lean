import Mathlib.Data.List.Basic
import Mathlib.Data.Set.Insert
import Mathlib.Data.List.Nodup
import Mathlib.Tactic.Common

/-!
# Quad stores

RDF terms, quads and a store of quads without repetitions. `Store.insert` and `Store.remove` are the
two primitive updates, `Pattern` selects quads by some of their four components. A store is used
through membership; its order only decides in which order a scan finds the quads.
-/

namespace Lib

/-- An IRI that stands as a term. -/
structure NamedNode where
  value : String
deriving DecidableEq

/-- A literal: its lexical form, its datatype and its language tag. -/
structure Literal where
  value : String
  datatype : String
  language : Option String
deriving DecidableEq

/-- The subject of a quad; a quoted triple is kept as its text. -/
inductive Subject where
  | named (n : NamedNode)
  | blank (id : String)
  | triple (text : String)
deriving DecidableEq

/-- The object of a quad. -/
inductive Term where
  | named (n : NamedNode)
  | blank (id : String)
  | literal (l : Literal)
  | triple (text : String)
deriving DecidableEq

/-- The graph of a quad. -/
inductive GraphName where
  | default
  | named (n : NamedNode)
deriving DecidableEq

/-- A triple, as a document holds it. -/
structure Triple where
  subject : Subject
  predicate : NamedNode
  object : Term
deriving DecidableEq

/-- A triple in a graph. -/
structure Quad where
  subject : Subject
  predicate : NamedNode
  object : Term
  graph : GraphName
deriving DecidableEq

/-- A subject in object position. -/
def Subject.toTerm : Subject → Term
  | .named n => .named n
  | .blank id => .blank id
  | .triple text => .triple text

/-- What a query prints for a subject. -/
def Subject.text : Subject → String
  | .named n => n.value
  | .blank id => id
  | .triple text => text

/-- A triple put into a graph. -/
def Triple.inGraph (t : Triple) (g : GraphName) : Quad := ⟨t.subject, t.predicate, t.object, g⟩

/-- The quads of a store. -/
abbrev Store := List Quad

namespace Store

/-- Insert a quad; inserting it again does nothing. -/
def insert (s : Store) (q : Quad) : Store := if q ∈ s then s else s ++ [q]

/-- Remove the quads that satisfy a test. -/
def removeIf (s : Store) (p : Quad → Bool) : Store := s.filter fun q => !p q

@[simp] theorem mem_insert {s : Store} {q r : Quad} : r ∈ s.insert q ↔ r ∈ s ∨ r = q := by
  unfold insert
  by_cases h : q ∈ s
  · rw [if_pos h]
    exact ⟨Or.inl, fun hr => hr.elim id fun heq => heq ▸ h⟩
  · rw [if_neg h]
    simp

@[simp] theorem mem_removeIf {s : Store} {p : Quad → Bool} {r : Quad} :
    r ∈ s.removeIf p ↔ r ∈ s ∧ p r = false := by
  simp [removeIf]

end Store

/-! ## Patterns -/

/-- A selection of quads; a component that is `none` admits everything. -/
structure Pattern where
  subject : Option Subject := none
  predicate : Option NamedNode := none
  object : Option Term := none
  graph : Option GraphName := none
deriving DecidableEq

/-- An optional component admits a value. -/
def admits {α : Type*} [DecidableEq α] (o : Option α) (a : α) : Bool :=
  match o with
  | some b => b == a
  | none => true

@[simp] theorem admits_none {α : Type*} [DecidableEq α] (a : α) : admits none a = true := rfl

@[simp] theorem admits_some {α : Type*} [DecidableEq α] {a b : α} :
    admits (some b) a = true ↔ b = a := by
  simp [admits]

/-- The quad is selected. -/
def Pattern.matches (p : Pattern) (q : Quad) : Bool :=
  admits p.subject q.subject && admits p.predicate q.predicate && admits p.object q.object &&
    admits p.graph q.graph

theorem Pattern.matches_iff {p : Pattern} {q : Quad} :
    p.matches q = true ↔ admits p.subject q.subject = true ∧ admits p.predicate q.predicate = true ∧
      admits p.object q.object = true ∧ admits p.graph q.graph = true := by
  simp [Pattern.matches, and_assoc]

/-- The pattern that selects one quad. -/
def Quad.pattern (q : Quad) : Pattern :=
  ⟨some q.subject, some q.predicate, some q.object, some q.graph⟩

@[simp] theorem Quad.pattern_matches {q r : Quad} : q.pattern.matches r = true ↔ q = r := by
  rw [Pattern.matches_iff, Quad.pattern]
  cases q
  cases r
  simp

/-- The quads of a store that a pattern selects. -/
def Store.quadsForPattern (s : Store) (p : Pattern) : List Quad := s.filter p.matches

@[simp] theorem Store.mem_quadsForPattern {s : Store} {p : Pattern} {q : Quad} :
    q ∈ s.quadsForPattern p ↔ q ∈ s ∧ p.matches q = true := by
  simp [Store.quadsForPattern]

end Lib
