import Picloud.Domain.Payload
import Picloud.Lib.StoreScript

/-!
# The primitives of the projector

Reference: `picloud-rdf/src/implementation.rs`, the vocabulary and the insert and remove helpers.

A handler is a `Script`. Each helper is the list of operations it performs: the checks of
`NamedNode::new` with the texts of their errors, in the order of the source, then the update. What
the projector takes from its libraries is in `ProjectorEnv`.
-/

namespace Picloud

open Lib

/-! ## Vocabulary -/

/-- `PICLOUD_NS`. -/
def picloudNs : String := "https://picloud.local/ontology#"

/-- `RDF_TYPE`. -/
def rdfType : String := "http://www.w3.org/1999/02/22-rdf-syntax-ns#type"

/-- `RDFS_SUBCLASS_OF`. -/
def rdfsSubclassOf : String := "http://www.w3.org/2000/01/rdf-schema#subClassOf"

/-- `OWL_TRANSITIVE_PROPERTY`. -/
def owlTransitiveProperty : String := "http://www.w3.org/2002/07/owl#TransitiveProperty"

/-- The datatype of a simple literal. -/
def xsdString : String := "http://www.w3.org/2001/XMLSchema#string"

/-- `http://www.w3.org/2001/XMLSchema#dateTime`. -/
def xsdDateTime : String := "http://www.w3.org/2001/XMLSchema#dateTime"

/-- `http://www.w3.org/2001/XMLSchema#unsignedLong`. -/
def xsdUnsignedLong : String := "http://www.w3.org/2001/XMLSchema#unsignedLong"

/-- `http://www.w3.org/2001/XMLSchema#double`. -/
def xsdDouble : String := "http://www.w3.org/2001/XMLSchema#double"

/-- `format!("{PICLOUD_NS}{local}")`. -/
def pc (name : String) : String := picloudNs ++ name

/-- `picloud_term`: an ontology term as an object. -/
def picloudTerm (name : String) : Term := .named ⟨pc name⟩

/-- `NamedNode::new(iri)`, as an object. -/
def node (iri : String) : Term := .named ⟨iri⟩

/-- `Literal::new_simple_literal`. -/
def simple (value : String) : Term := .literal ⟨value, xsdString, none⟩

/-- `Literal::new_typed_literal`. -/
def typed (value datatype : String) : Term := .literal ⟨value, datatype, none⟩

theorem pc_injective : Function.Injective pc := by
  intro a b h
  have hlist := congrArg String.toList h
  rw [pc, pc, String.toList_append, String.toList_append] at hlist
  exact String.toList_inj.mp (List.append_cancel_left hlist)

@[simp] theorem pc_inj {a b : String} : pc a = pc b ↔ a = b := pc_injective.eq_iff

theorem toList_pc (name : String) : (pc name).toList = picloudNs.toList ++ name.toList := by
  rw [pc, String.toList_append]

/-- The fifth character tells the platform vocabulary from the W3C ones. -/
theorem pc_ne_of_getElem {name iri : String} (h : iri.toList[4]? ≠ some 's') : pc name ≠ iri := by
  rintro rfl
  apply h
  rw [toList_pc, List.getElem?_append_left (by decide)]
  decide

@[simp] theorem pc_ne_rdfType (name : String) : pc name ≠ rdfType :=
  pc_ne_of_getElem (by decide)

@[simp] theorem rdfType_ne_pc (name : String) : rdfType ≠ pc name := (pc_ne_rdfType name).symm

@[simp] theorem pc_ne_rdfsSubclassOf (name : String) : pc name ≠ rdfsSubclassOf :=
  pc_ne_of_getElem (by decide)

@[simp] theorem rdfType_ne_rdfsSubclassOf : rdfType ≠ rdfsSubclassOf := by decide

/-! ## What the projector takes from its libraries -/

/-- Oxigraph, `serde_json`, `chrono` and the number formatting of the standard library, as far as
the projector uses them. -/
structure ProjectorEnv where
  /-- The cluster domain the projector was opened with. -/
  iris : IriBuilder
  /-- `NamedNode::new` and `BlankNode::new`. -/
  checks : TermChecks
  /-- The Turtle parser, with `PICLOUD_NS` as base. -/
  turtle : String → Except String (List Triple)
  /-- The fresh identifier a load into a store gives to a blank node of the document. -/
  rename : Store → String → String
  /-- The order in which a query finds the quads. -/
  scan : List Quad → List Quad
  /-- `serde_json::to_string` of a value, also the `Display` of values and numbers. -/
  jsonText : Json → String
  /-- `to_string` of the `f64` that a number is read as. -/
  f64Text : JsonNumber → String
  /-- `timestamp.to_rfc3339()`. -/
  rfc3339 : ℤ → String
  /-- `str::to_lowercase`. -/
  toLowercase : String → String
  /-- The terms of the platform vocabulary are IRIs. -/
  iri_pc : ∀ name, (∀ c ∈ name.toList, c.isAlphanum = true) → checks.iri (pc name) = none
  /-- `rdf:type` is an IRI. -/
  iri_rdfType : checks.iri rdfType = none
  /-- A query finds every quad, once. -/
  scan_perm : ∀ l, (scan l).Perm l

/-- An environment that runs, for events whose texts are all valid: every check passes, and queries
answer in the order of the store. -/
def sampleEnv (turtle : String → Except String (List Triple)) : ProjectorEnv where
  iris := ⟨"picloud.local"⟩
  checks := ⟨fun _ => none, fun _ => none⟩
  turtle := turtle
  rename := fun _ id => id
  scan := id
  jsonText := fun _ => "null"
  f64Text := fun _ => "0"
  rfc3339 := fun _ => "1970-01-01T00:00:00+00:00"
  toLowercase := fun s => String.ofList (s.toList.map Char.toLower)
  iri_pc := fun _ _ => rfl
  iri_rdfType := rfl
  scan_perm := List.Perm.refl

/-- The sample environment for events without a document. -/
def plainEnv : ProjectorEnv := sampleEnv fun _ => .ok []

/-- A text with a blank is rejected. -/
def noBlank (message text : String) : Option String :=
  if ' ' ∈ text.toList then some message else none

/-- The sample environment for events with texts that are no IRIs. -/
def strictEnv : ProjectorEnv :=
  { plainEnv with
    checks :=
      ⟨noBlank "Invalid IRI code point ' '", noBlank "The blank node identifier is invalid"⟩
    iri_pc := by
      intro name h
      refine if_neg fun hmem => ?_
      rw [toList_pc, List.mem_append] at hmem
      rcases hmem with hns | hname
      · exact absurd hns (by decide)
      · exact absurd (h ' ' hname) (by decide)
    iri_rdfType := by decide }

/-- An event of the sample cluster. -/
def sampleEvent (eventType : String) (product : Option String) (payload : List (String × Json)) :
    EventEnvelope :=
  EventEnvelope.new 1 0 ⟨"https://picloud.local/schema/v1"⟩ eventType
    ⟨"https://picloud.local/nodes/a"⟩ product 2 (.object payload)

/-! ## Inserting -/

/-- A quad with an IRI as its subject. -/
def quad (subject predicate : String) (object : Term) (graph : GraphName) : Quad :=
  ⟨.named ⟨subject⟩, ⟨predicate⟩, object, graph⟩

/-- `insert_triple`. -/
def insertTriple (subject predicate : String) (object : Term) : List Op :=
  [.named "invalid subject IRI: " subject, .named "invalid predicate IRI: " predicate,
    .put (quad subject predicate object .default)]

/-- `insert_triple_in_graph`. That the named graph exists is not recorded: no function asks. -/
def insertTripleInGraph (subject predicate : String) (object : Term) (graph : String) : List Op :=
  [.named "invalid subject IRI: " subject, .named "invalid predicate IRI: " predicate,
    .named "invalid graph IRI: " graph, .put (quad subject predicate object (.named ⟨graph⟩))]

/-- `insert_triple` with an IRI as its object: the object is checked first. -/
def insertNode (subject predicate context object : String) : List Op :=
  .named context object :: insertTriple subject predicate (node object)

/-! ## Removing -/

/-- All quads about an IRI, in every graph. -/
def aboutIri (subject : String) : Pattern := { subject := some (.named ⟨subject⟩) }

/-- All quads about an IRI in the default graph. -/
def aboutIriInDefault (subject : String) : Pattern :=
  { subject := some (.named ⟨subject⟩), graph := some .default }

/-- The values of a property of an IRI, in the graphs selected. -/
def valuesOf (subject predicate : String) (graph : Option GraphName) : Pattern :=
  { subject := some (.named ⟨subject⟩), predicate := some ⟨predicate⟩, graph := graph }

theorem valuesOf_matches_iff {subject predicate : String} {graph : GraphName} {q : Quad} :
    (valuesOf subject predicate (some graph)).matches q = true ↔
      q.subject = .named ⟨subject⟩ ∧ q.predicate = ⟨predicate⟩ ∧ q.graph = graph := by
  rw [Pattern.matches_iff, valuesOf]
  simp only [admits_some, admits_none, true_and]
  exact and_congr eq_comm (and_congr eq_comm eq_comm)

/-- `remove_triples_about`. -/
def removeTriplesAbout (subject : String) : List Op :=
  [.named "invalid subject IRI: " subject, .del (aboutIriInDefault subject)]

/-- `remove_triple`: all values of a property, in every graph. -/
def removeTriple (subject predicate : String) : List Op :=
  [.named "invalid subject IRI: " subject, .named "invalid predicate IRI: " predicate,
    .del (valuesOf subject predicate none)]

/-- `remove_triples_about_all_graphs`. -/
def removeTriplesAboutAllGraphs (subject : String) : List Op :=
  [.named "invalid subject IRI: " subject, .del (aboutIri subject)]

/-- Removing the old values of a property in the default graph, the subject having been checked. -/
def clearInDefault (subject predicate : String) : List Op :=
  [.named "invalid predicate IRI: " predicate, .del (valuesOf subject predicate (some .default))]

/-- `let _ = self.remove_triples_about_all_graphs(..)`: a text that is no IRI is passed over. -/
def tryRemoveAbout (env : ProjectorEnv) (subject : String) : List Op :=
  match env.checks.iri subject with
  | none => [.del (aboutIri subject)]
  | some _ => []

/-! ## Running the helpers -/

section Running

variable {C : TermChecks} {subject predicate : String}

theorem runOps_insertTriple (hs : C.iri subject = none) (hp : C.iri predicate = none) (s : Store)
    (object : Term) (ops : List Op) : runOps C s (insertTriple subject predicate object ++ ops) =
      runOps C (s.insert (quad subject predicate object .default)) ops := by
  rw [insertTriple, List.cons_append, runOps_named_ok _ hs, List.cons_append, runOps_named_ok _ hp]
  rfl

theorem runOps_insertTripleInGraph {graph : String} (hs : C.iri subject = none)
    (hp : C.iri predicate = none) (hg : C.iri graph = none) (s : Store) (object : Term)
    (ops : List Op) : runOps C s (insertTripleInGraph subject predicate object graph ++ ops) =
      runOps C (s.insert (quad subject predicate object (.named ⟨graph⟩))) ops := by
  rw [insertTripleInGraph, List.cons_append, runOps_named_ok _ hs, List.cons_append,
    runOps_named_ok _ hp, List.cons_append, runOps_named_ok _ hg]
  rfl

theorem runOps_insertTripleInGraph_error {graph e : String} (hs : C.iri subject = none)
    (hp : C.iri predicate = none) (hg : C.iri graph = some e) (s : Store) (object : Term)
    (ops : List Op) : runOps C s (insertTripleInGraph subject predicate object graph ++ ops) =
      (.error ("invalid graph IRI: " ++ e), s) := by
  rw [insertTripleInGraph, List.cons_append, runOps_named_ok _ hs, List.cons_append,
    runOps_named_ok _ hp, List.cons_append, runOps_named_error _ hg]

theorem runOps_clearInDefault (hp : C.iri predicate = none) (s : Store) (ops : List Op) :
    runOps C s (clearInDefault subject predicate ++ ops) =
      runOps C (s.removeIf (valuesOf subject predicate (some .default)).matches) ops := by
  rw [clearInDefault, List.cons_append, runOps_named_ok _ hp]
  rfl

end Running

end Picloud
