import Picloud.Rdf.Closure
import Picloud.Rdf.Lifecycle
import Picloud.Rdf.Materialisation
import Picloud.Rdf.Reprojection

/-!
# Ontologies before and after declarations

Loading an ontology and declaring a resource only add types and superclasses. Loaded last, the ontology
infers from the types of the resources; loaded first, it does not. Nothing is missing there as long as the
classes of the resources have no superclass, and then the order does not matter.
-/

namespace Picloud

open Lib

/-! ## Types and superclasses -/

/-- A type, or a superclass. -/
def Typing (q : Quad) : Prop := q.predicate = ⟨rdfType⟩ ∨ q.predicate = ⟨rdfsSubclassOf⟩

/-- Neither `rdf:type` nor `rdfs:subClassOf` is declared transitive. -/
def PlainTyping (s : Store) : Prop :=
  ⟨rdfType⟩ ∉ transitiveProps s ∧ ⟨rdfsSubclassOf⟩ ∉ transitiveProps s

/-- The store has the types and superclasses of the other. -/
def TypingsOf (s t : Store) : Prop := ∀ q ∈ s, Typing q → q ∈ t

variable {env : ProjectorEnv} {s t : Store} {q : Quad} {P : Quad → Prop}

theorem PlainTyping.mono (ht : PlainTyping t) (h : TypingsOf s t) : PlainTyping s := by
  have hprops : ∀ p, p ∈ transitiveProps s → p ∈ transitiveProps t := fun p hp => by
    obtain ⟨g, hmem⟩ := mem_transitiveProps.mp hp
    exact mem_transitiveProps.mpr ⟨g, h _ hmem (Or.inl rfl)⟩
  exact ⟨fun hp => ht.1 (hprops _ hp), fun hp => ht.2 (hprops _ hp)⟩

/-- The rule of the subclasses keeps a property of types and superclasses. -/
def KeptBySubclass (P : Quad → Prop) : Prop :=
  ∀ (x c : Subject) (d : NamedNode) (g : GraphName), P ⟨c, ⟨rdfsSubclassOf⟩, .named d, g⟩ →
    P ⟨x, ⟨rdfType⟩, c.toTerm, g⟩ → P ⟨x, ⟨rdfType⟩, .named d, g⟩

theorem typings_materialiseRdfsSubclass (hP : KeptBySubclass P) (hs : ∀ q ∈ s, Typing q → P q) :
    ∀ q ∈ materialiseRdfsSubclass s, Typing q → P q :=
  saturate_invariant (I := fun t => ∀ q ∈ t, Typing q → P q)
    (fun _ ht => forall_rdfsPass (P := fun q => Typing q → P q)
      (fun x c d g hsub htype _ => hP x c d g (hsub (Or.inr rfl)) (htype (Or.inl rfl))) ht) hs

/-- The loops for the other properties leave types and superclasses alone. -/
theorem typingsOf_materialiseOwl (hplain : PlainTyping s) :
    TypingsOf (materialiseOwlTransitiveProperty s) s := by
  have hloops : ∀ (props : List NamedNode) (t : Store), ⟨rdfType⟩ ∉ props → ⟨rdfsSubclassOf⟩ ∉ props →
      TypingsOf (props.foldl transitiveClosure t) t := by
    intro props
    induction props with
    | nil => exact fun t _ _ q hq _ => hq
    | cons p props ih =>
      intro t htype hsub q hq htyping
      rw [List.mem_cons, not_or] at htype hsub
      have hne : q.predicate ≠ p := by
        rintro rfl
        exact htyping.elim (fun h => htype.1 h.symm) fun h => hsub.1 h.symm
      exact (mem_transitiveClosure_of_ne hne).mp (ih _ htype.2 hsub.2 q hq htyping)
  exact hloops _ s hplain.1 hplain.2

/-- Both materialisations, one after the other. -/
def materialised (s : Store) : Store := materialiseOwlTransitiveProperty (materialiseRdfsSubclass s)

theorem subset_materialiseOwl (s : Store) : s ⊆ materialiseOwlTransitiveProperty s :=
  List.foldlRecOn (motive := fun t => s ⊆ t) _ _ (List.Subset.refl s) fun t ht p _ =>
    List.Subset.trans ht (transitiveClosure_spec t p).1.subset

theorem subset_materialised (s : Store) : s ⊆ materialised s :=
  List.Subset.trans (materialiseRdfsSubclass_spec s).1.subset (subset_materialiseOwl _)

/-! ## Loading an ontology -/

/-- The triples of a document are inserted into a graph. -/
def loadTriples (env : ProjectorEnv) (triples : List Triple) (graph : GraphName) (s : Store) : Store :=
  triples.foldl (fun t triple => t.insert ((renameTriple (env.rename s) triple).inGraph graph)) s

variable {triples : List Triple} {graph : GraphName}

theorem mem_loadTriples : q ∈ loadTriples env triples graph s ↔
    q ∈ s ∨ ∃ t ∈ triples, q = (renameTriple (env.rename s) t).inGraph graph := by
  have hfold : ∀ (l : List Triple) (u : Store),
      q ∈ l.foldl (fun v t => v.insert ((renameTriple (env.rename s) t).inGraph graph)) u ↔
        q ∈ u ∨ ∃ t ∈ l, q = (renameTriple (env.rename s) t).inGraph graph := by
    intro l
    induction l with
    | nil => simp
    | cons t l ih =>
      intro u
      rw [List.foldl_cons, ih, Store.mem_insert, List.exists_mem_cons_iff, or_assoc]
  exact hfold triples s

/-- A load that succeeds. -/
theorem runScript_loadOntology {turtle : String} (product : Option String)
    (hgraph : ∀ g ∈ product, env.checks.iri g = none) (hparse : env.turtle turtle = .ok triples)
    (s : Store) : runScript env.checks s (loadOntology env turtle product) =
      (.ok (), materialised (loadTriples env triples
        (product.elim .default fun g => .named ⟨g⟩) s)) := by
  have hcheck : runOps env.checks s (product.toList.map (.named "invalid graph IRI: ")) = (.ok (), s) := by
    cases product with
    | none => rfl
    | some g => exact runOps_named_ok env.checks (hgraph g rfl) s _ []
  have hputs : ∀ (l : List Triple) (f : Triple → Quad) (u : Store),
      runOps env.checks u (l.map fun t => .put (f t)) = (.ok (), l.foldl (fun v t => v.insert (f t)) u) := by
    intro l f
    induction l with
    | nil => exact fun u => rfl
    | cons t l ih => exact fun u => ih _
  unfold loadOntology
  dsimp only
  rw [runScript, Step.run, hcheck]
  simp only [runScript, Step.run, loadFromReader, hparse, hputs]
  cases product <;> rfl

/-- A load that fails changes nothing. -/
theorem runScript_loadOntology_error {turtle : String} {product : Option String}
    (h : (∃ g e, product = some g ∧ env.checks.iri g = some e) ∨ ∃ e, env.turtle turtle = .error e)
    (s : Store) : ∃ e, runScript env.checks s (loadOntology env turtle product) = (.error e, s) := by
  unfold loadOntology
  dsimp only
  rw [runScript, Step.run]
  rcases h with ⟨g, e, rfl, herror⟩ | ⟨e, hparse⟩
  · refine ⟨"invalid graph IRI: " ++ e, ?_⟩
    rw [Option.toList_some, List.map_singleton, runOps_named_error env.checks herror]
  · rcases hcheck : runOps env.checks s (product.toList.map (.named "invalid graph IRI: ")) with
      ⟨_ | ⟨⟨⟩⟩, t⟩
    all_goals
      have hsame : t = s := by
        have hkept : (runOps env.checks s (product.toList.map (.named "invalid graph IRI: "))).2 = s :=
          runOps_invariant (I := fun t => t = s) (by simp [Op.effect]) rfl
        rw [hcheck] at hkept
        exact hkept
      subst hsame
    · exact ⟨_, rfl⟩
    · refine ⟨"ontology load failed: " ++ e, ?_⟩
      simp only [runScript, Step.run, loadFromReader, hparse, runOps, Op.exec]

/-- What an ontology does to types and superclasses: it is loaded into a named graph and into the default
graph. -/
def loadTwice (env : ProjectorEnv) (triples : List Triple) (graph : NamedNode) (s : Store) : Store :=
  materialised (loadTriples env triples .default
    (materialised (loadTriples env triples (.named graph) s)))

/-- The last operations on an ontology touch neither. -/
theorem mem_boundOntology (iri version format product : String) (hq : Typing q) :
    q ∈ (runOps env.checks s (insertNode iri (pc "boundToVersion") "" version ++
      insertTriple iri (pc "loadedFormat") (simple format) ++
      updateStatus env iri "ready" (some product))).2 ↔ q ∈ s := by
  have hne : ∀ name, q.predicate ≠ ⟨pc name⟩ := by
    rintro name hpred
    rw [Typing, hpred] at hq
    exact hq.elim pc_not_typing.1 pc_not_typing.2
  refine runOps_invariant (I := fun t => q ∈ t ↔ q ∈ s) (fun op hop t ht => ?_) Iff.rfl
  simp only [insertNode, insertTriple, updateStatus, clearInDefault, insertTripleInGraph,
    List.mem_append, List.mem_cons, List.mem_flatMap, List.not_mem_nil, or_false, Option.toList_some,
    exists_eq_left] at hop
  have hput : ∀ name o g, q ∈ t.insert (quad iri (pc name) o g) ↔ q ∈ s := fun name o g =>
    (mem_insert_of_predicate_ne (hne name)).trans ht
  have hdel : ∀ name g, q ∈ t.removeIf (valuesOf iri (pc name) g).matches ↔ q ∈ s := by
    intro name g
    rw [Store.mem_removeIf, ← ht, and_iff_left_iff_imp]
    intro _
    rw [Bool.eq_false_iff, Ne, Pattern.matches_iff]
    exact fun hmatch => hne name (admits_some.mp hmatch.2.1).symm
  rcases hop with ((rfl | rfl | rfl | rfl) | rfl | rfl | rfl) | ((((rfl | rfl | rfl) | rfl | rfl | rfl) |
    rfl | rfl | rfl) | (rfl | rfl) | rfl | rfl | rfl | rfl) <;>
    first | exact ht | exact hput _ _ _ | exact hdel _ _

/-- Either the ontology changes nothing, or it is loaded twice, and the rest of its projection is about
neither types nor superclasses. -/
theorem projected_ontologyLoaded {event : EventEnvelope} (htype : event.eventType = "OntologyLoaded") :
    (∀ s, projected env s event = s) ∨ ∃ triples graph,
      env.turtle (event.strD "content" "") = .ok triples ∧
      ∀ s q, Typing q → (q ∈ projected env s event ↔ q ∈ loadTwice env triples graph s) := by
  have hscript : script env event = projectOntologyLoaded env event := script_ontologyLoaded htype
  rw [projectOntologyLoaded] at hscript
  by_cases hempty : event.strD "content" "" = ""
  · rw [if_pos hempty] at hscript
    exact Or.inl fun s => by rw [projected_eq, hscript, runScript]
  rw [if_neg hempty] at hscript
  have hfails : (∃ g e, some (env.iris.productGraph (event.strD "product" "")) = some g ∧
      env.checks.iri g = some e) ∨ (∃ e, env.turtle (event.strD "content" "") = .error e) →
      ∀ s, projected env s event = s := by
    intro h s
    obtain ⟨e, herror⟩ := runScript_loadOntology_error h s
    rw [projected_eq, hscript, runScript_append, runScript_append, herror]
  cases hgraph : env.checks.iri (env.iris.productGraph (event.strD "product" "")) with
  | some e => exact Or.inl (hfails (Or.inl ⟨_, e, rfl, hgraph⟩))
  | none =>
    cases hparse : env.turtle (event.strD "content" "") with
    | error e => exact Or.inl (hfails (Or.inr ⟨e, hparse⟩))
    | ok triples =>
      refine Or.inr ⟨triples, ⟨env.iris.productGraph (event.strD "product" "")⟩, rfl, fun s q hq => ?_⟩
      rw [projected_eq, hscript, runScript_append, runScript_append,
        runScript_loadOntology (some _) (by simpa using hgraph) hparse]
      dsimp only
      rw [runScript_loadOntology none (by simp) hparse]
      dsimp only
      rw [runScript_singleton]
      exact mem_boundOntology _ _ _ _ hq

/-- What loading an ontology twice adds to types and superclasses has a property that the triples have and
the rule of the subclasses keeps. -/
theorem typings_loadTwice (graph : NamedNode) (hP : KeptBySubclass P) (hs : ∀ q ∈ s, Typing q → P q)
    (hloaded : ∀ t ∈ triples, ∀ u : Store, ∀ g ∈ [GraphName.named graph, .default],
      Typing ((renameTriple (env.rename u) t).inGraph g) → P ((renameTriple (env.rename u) t).inGraph g))
    (hplain : ∀ u : Store, u ⊆ loadTwice env triples graph s → (∀ q ∈ u, Typing q → P q) →
      PlainTyping u) :
    ∀ q ∈ loadTwice env triples graph s, Typing q → P q := by
  have hload : ∀ (u : Store) (g : GraphName), g ∈ [GraphName.named graph, .default] →
      (∀ q ∈ u, Typing q → P q) → materialised (loadTriples env triples g u) ⊆ loadTwice env triples graph s →
      ∀ q ∈ materialised (loadTriples env triples g u), Typing q → P q := by
    intro u g hg hu hsub q hq htyping
    have hfirst : ∀ q ∈ materialiseRdfsSubclass (loadTriples env triples g u), Typing q → P q := by
      refine typings_materialiseRdfsSubclass hP fun q hq htyping => ?_
      rcases mem_loadTriples.mp hq with hold | ⟨t, ht, rfl⟩
      · exact hu q hold htyping
      · exact hloaded t ht u g hg htyping
    have hu' := hplain _ (List.Subset.trans (subset_materialiseOwl _) hsub) hfirst
    exact hfirst q (typingsOf_materialiseOwl hu' q hq htyping) htyping
  have hinner : ∀ q ∈ materialised (loadTriples env triples (.named graph) s), Typing q → P q :=
    hload s _ (by simp) hs (List.Subset.trans (fun q hq => mem_loadTriples.mpr (Or.inl hq))
      (subset_materialised _))
  exact hload _ _ (by simp) hinner (List.Subset.refl _)

/-! ## Declaring a resource -/

/-- The operations of a declaration that are executed. -/
def declaredOps (env : ProjectorEnv) (event : EventEnvelope) : List Op :=
  accepted env.checks
    (declareResource env event (resourceOf event) (event.strD "resource_type" "Resource") ++
      declareByType env event (resourceOf event) (event.strD "resource_type" "Resource"))

/-- A declaration only inserts. -/
theorem mem_projected_declared {event : EventEnvelope} (htype : event.eventType = "ResourceDeclared") :
    q ∈ projected env s event ↔ q ∈ s ∨ Op.put q ∈ declaredOps env event := by
  have hside : AllOps (SideOp [] (resourceOf event))
      (declareResource env event (resourceOf event) (event.strD "resource_type" "Resource") ++
        declareByType env event (resourceOf event) (event.strD "resource_type" "Resource")) := by
    refine allOps_append.mpr ⟨by simp [declareResource], ?_⟩
    exact allOps_sideOp_mono (List.nil_subset _) (sideOps_declareByType env event _ _)
  have hfold : ∀ (l : List Op) (t : Store), AllOps (SideOp [] (resourceOf event)) l →
      (q ∈ l.foldl Op.effect t ↔ q ∈ t ∨ Op.put q ∈ l) := by
    intro l
    induction l with
    | nil => simp
    | cons op l ih =>
      intro t hl
      obtain ⟨hop, hl⟩ := allOps_cons.mp hl
      rw [List.foldl_cons, ih _ hl, List.mem_cons]
      cases op with
      | put r => rw [Op.effect, Store.mem_insert, Op.put.injEq, or_assoc]
      | del p => exact hop.elim
      | named | blank | fail => simp [Op.effect]
  rw [projected_declared htype, runOps_eq]
  exact hfold _ s fun op hop => hside op (mem_of_mem_accepted hop)

theorem mem_executed_declared {event : EventEnvelope} (htype : event.eventType = "ResourceDeclared")
    {op : Op} (h : op ∈ declaredOps env event) (s : Store) :
    op ∈ executed env.checks s (script env event) := by
  rw [script_resourceDeclared htype, projectResourceDeclared, executed]
  exact List.mem_append_left _ h

/-- So do several declarations. -/
theorem mem_foldl_declared {declareds : List EventEnvelope}
    (h : ∀ declared ∈ declareds, declared.eventType = "ResourceDeclared") (s : Store) :
    q ∈ declareds.foldl (projected env) s ↔
      q ∈ s ∨ ∃ declared ∈ declareds, Op.put q ∈ declaredOps env declared := by
  induction declareds generalizing s with
  | nil => simp
  | cons declared declareds ih =>
    obtain ⟨hdeclared, h⟩ := List.forall_mem_cons.mp h
    rw [List.foldl_cons, ih h, mem_projected_declared hdeclared, List.exists_mem_cons_iff, or_assoc]

/-- The classes that quiet declarations give have no superclass. -/
theorem notMem_of_quiet_declared {declareds : List EventEnvelope}
    (h : ∀ declared ∈ declareds, declared.eventType = "ResourceDeclared")
    (hquiet : StepsMeet (fun s event => some (projected env s event)) (Quiet env) s declareds) :
    ∀ declared ∈ declareds, Op.put q ∈ declaredOps env declared → q.predicate = ⟨rdfType⟩ →
      q.graph = .default → ∀ c : Subject, q.object = c.toTerm → ∀ d,
        (⟨c, ⟨rdfsSubclassOf⟩, d, .default⟩ : Quad) ∉ s := by
  induction declareds generalizing s with
  | nil => simp
  | cons first declareds ih =>
    obtain ⟨hfirst, h⟩ := List.forall_mem_cons.mp h
    intro declared hmem hput hpred hgraph c hobject d hsub
    rcases List.mem_cons.mp hmem with rfl | hmem
    · exact hquiet.1.classes (by rw [hfirst]; decide) c
        ⟨q, mem_executed_declared hfirst hput s, hpred, hgraph, hobject⟩ d hsub
    · exact ih h hquiet.2 declared hmem hput hpred hgraph c hobject d
        ((mem_projected_declared hfirst).mpr (Or.inl hsub))

/-- It declares no superclass. -/
theorem predicate_ne_of_declared {event : EventEnvelope} (htype : event.eventType = "ResourceDeclared")
    (h : Op.put q ∈ declaredOps env event) : q.predicate ≠ ⟨rdfsSubclassOf⟩ := by
  obtain ⟨step, hstep, t, hop⟩ := mem_executed (mem_executed_declared htype h [])
  have hscript : LawfulScript env (script env event) := lawful_script (by rw [htype]; decide)
  have hlawful := hscript step hstep
  have hvocabulary : Vocabulary q.predicate q.object := by
    cases step with
    | ops l => exact (hlawful _ hop).1
    | read f => exact (hlawful t _ hop).1
    | update f => cases hop
  rintro heq
  rcases hvocabulary with ⟨name, hpred⟩ | ⟨hpred, -⟩
  · exact pc_not_typing.2 (hpred.symm.trans heq)
  · exact rdfType_ne_rdfsSubclassOf (congrArg NamedNode.value (hpred.symm.trans heq))

/-! ## The two orders -/

/-- The blank nodes of an ontology get the same names whenever it is loaded; in particular if it has none. -/
def SameNames (env : ProjectorEnv) (event : EventEnvelope) : Prop :=
  ∀ triples, env.turtle (event.strD "content" "") = .ok triples → ∀ s s', ∀ t ∈ triples,
    renameTriple (env.rename s) t = renameTriple (env.rename s') t

/-- What is loaded is there. -/
theorem mem_loadTwice {graph : NamedNode} (hnames : ∀ s s', ∀ t ∈ triples,
      renameTriple (env.rename s) t = renameTriple (env.rename s') t) {t : Triple} (ht : t ∈ triples)
    (u : Store) {g : GraphName} (hg : g ∈ [GraphName.named graph, .default]) (s : Store) :
    (renameTriple (env.rename u) t).inGraph g ∈ loadTwice env triples graph s := by
  have hinner : ∀ v w : Store, ∀ g, (renameTriple (env.rename u) t).inGraph g ∈
      materialised (loadTriples env triples g v) := fun v _ g => by
    refine subset_materialised _ (mem_loadTriples.mpr (Or.inr ⟨t, ht, ?_⟩))
    rw [hnames u v t ht]
  simp only [List.mem_cons, List.not_mem_nil, or_false] at hg
  rcases hg with rfl | rfl
  · exact subset_materialised _ (mem_loadTriples.mpr (Or.inl (hinner _ s _)))
  · exact hinner _ s _

theorem subset_loadTwice (env : ProjectorEnv) (triples : List Triple) (graph : NamedNode) (s : Store) :
    s ⊆ loadTwice env triples graph s := fun _ hq =>
  subset_materialised _ (mem_loadTriples.mpr (Or.inl
    (subset_materialised _ (mem_loadTriples.mpr (Or.inl hq)))))

/-- **An ontology and declarations may change places**: if the classes of the resources have no superclass
once the ontology is loaded, the default graph has the same types in either order. -/
theorem type_mem_swap {ontology : EventEnvelope} {declareds : List EventEnvelope}
    (hontology : ontology.eventType = "OntologyLoaded")
    (hdeclareds : ∀ declared ∈ declareds, declared.eventType = "ResourceDeclared")
    (hclosed : ClosedInDefault (projected env s ontology))
    (hquiet : StepsMeet (fun s event => some (projected env s event)) (Quiet env)
      (projected env s ontology) declareds)
    (hnames : SameNames env ontology)
    (hplain : PlainTyping (projected env (declareds.foldl (projected env) s) ontology))
    (x : Subject) (c : Term) :
    (⟨x, ⟨rdfType⟩, c, .default⟩ : Quad) ∈ declareds.foldl (projected env) (projected env s ontology) ↔
      ⟨x, ⟨rdfType⟩, c, .default⟩ ∈ projected env (declareds.foldl (projected env) s) ontology := by
  rcases @projected_ontologyLoaded env _ hontology with hnone | ⟨triples, graph, hparse, hloads⟩
  · rw [hnone, hnone]
  have htyping : Typing (⟨x, ⟨rdfType⟩, c, .default⟩ : Quad) := Or.inl rfl
  have hsame := hnames triples hparse
  have hplain' : PlainTyping (loadTwice env triples graph (declareds.foldl (projected env) s)) :=
    hplain.mono fun _ hq hqt => (hloads _ _ hqt).mpr hq
  rw [mem_foldl_declared hdeclareds, hloads _ _ htyping, hloads _ _ htyping]
  constructor
  · rintro (hold | hnew)
    · -- what the ontology infers alone, it infers with the types of the resources there
      refine typings_loadTwice (P := (· ∈ loadTwice env triples graph (declareds.foldl (projected env) s)))
        graph (rdfsClosed_materialise _) (fun q hq _ => subset_loadTwice env triples graph _
          ((mem_foldl_declared hdeclareds _).mpr (Or.inl hq)))
        (fun t ht u g hg _ => mem_loadTwice hsame ht u hg _) (fun u _ hu => hplain'.mono hu) _ hold htyping
    · exact subset_loadTwice env triples graph _ ((mem_foldl_declared hdeclareds _).mpr (Or.inr hnew))
  · intro hmem
    have hbound := typings_loadTwice (P := fun q => q.graph = .default → q ∈ loadTwice env triples graph s ∨
        ∃ declared ∈ declareds, Op.put q ∈ declaredOps env declared)
      (s := declareds.foldl (projected env) s) graph ?_ ?_ ?_
      (fun u hu _ => hplain'.mono fun _ hq _ => hu hq)
    · exact hbound _ hmem htyping rfl
    · -- from a superclass nothing is inferred that is not there
      rintro x c d g hsub htype hdefault
      have hsub' := (hsub hdefault).resolve_right fun ⟨declared, hmem, hput⟩ =>
        predicate_ne_of_declared (hdeclareds declared hmem) hput rfl
      obtain rfl : g = .default := hdefault
      rcases htype rfl with hold | ⟨declared, hmem, hnew⟩
      · exact Or.inl ((hloads s _ (Or.inl rfl)).mp (hclosed x c (.named d)
          ((hloads s _ (Or.inr rfl)).mpr hsub') ((hloads s _ (Or.inl rfl)).mpr hold)))
      · exact absurd ((hloads s _ (Or.inr rfl)).mpr hsub')
          (notMem_of_quiet_declared hdeclareds hquiet declared hmem hnew rfl rfl c rfl (.named d))
    · intro q hq _ _
      exact ((mem_foldl_declared hdeclareds s).mp hq).imp_left fun hold =>
        subset_loadTwice env triples graph s hold
    · exact fun t ht u g hg _ _ => Or.inl (mem_loadTwice hsame ht u hg s)

/-! ## Whole runs -/

theorem graphAfter_append (env : ProjectorEnv) (events later : List EventEnvelope) :
    graphAfter env (events ++ later) = later.foldl (projected env) (graphAfter env events) := by
  rw [graphAfter, graphAfter, Projector.store_projectEach, Projector.store_projectEach, List.foldl_append]

/-- **Inference does not depend on the order of arrival.** A run of quiet events leaves the default graph
closed under `rdfs:subClassOf`; and an ontology that is projected before declarations could come after
them, with the same types in the default graph, also after later events whose handlers do not read the
graph. -/
theorem inference_in_any_order (env : ProjectorEnv) :
    (∀ events, QuietRun env events → ClosedInDefault (graphAfter env events)) ∧
    ∀ events ontology declareds later, ontology.eventType = "OntologyLoaded" →
      (∀ declared ∈ declareds, declared.eventType = "ResourceDeclared") →
      (∀ event ∈ later, event.eventType ∉ storeDerived) →
      QuietRun env (events ++ ontology :: declareds) →
      SameNames env ontology → PlainTyping (graphAfter env (events ++ declareds ++ [ontology])) →
      ∀ x c, ⟨x, ⟨rdfType⟩, c, .default⟩ ∈ graphAfter env (events ++ ontology :: declareds ++ later) ↔
        ⟨x, ⟨rdfType⟩, c, .default⟩ ∈ graphAfter env (events ++ declareds ++ ontology :: later) := by
  refine ⟨fun events => closed_of_quiet_run env events, ?_⟩
  intro events ontology declareds later hontology hdeclareds hlater hquiet hnames hplain x c
  simp only [graphAfter_append, List.foldl_cons, List.foldl_nil] at hplain ⊢
  obtain ⟨hbefore, hafter⟩ := (stepsMeet_append _).mp hquiet
  have hstep : Quiet env (graphAfter env events) ontology ∧
      StepsMeet (fun s event => some (projected env s event)) (Quiet env)
        (projected env (graphAfter env events) ontology) declareds := by
    refine hafter _ ?_
    rw [runSteps_some, graphAfter, Projector.store_projectEach]
    rfl
  have hloaded : QuietRun env (events ++ [ontology]) :=
    (stepsMeet_append _).mpr ⟨hbefore, fun t ht => ⟨(hafter t ht).1, trivial⟩⟩
  have hclosed := closed_of_quiet_run env _ hloaded
  rw [graphAfter_append] at hclosed
  -- the later events keep or remove a type whatever else is there
  obtain ⟨keep, add, hmem⟩ := overwrites_foldl hlater
  rw [hmem, hmem, type_mem_swap hontology hdeclareds hclosed hstep.2 hnames hplain x c]

/-- An ontology that makes sensors assets, and the resource a sensor. -/
def sensorEnv : ProjectorEnv := sampleEnv fun _ =>
  .ok [⟨.named ⟨pc "Sensor"⟩, ⟨rdfsSubclassOf⟩, picloudTerm "Asset"⟩,
    ⟨.named ⟨"https://picloud.local/r"⟩, ⟨rdfType⟩, picloudTerm "Sensor"⟩]

theorem quiet_sampleDeclared : Quiet sensorEnv (graphAfter sensorEnv [sampleOntology]) sampleDeclared := by
  refine ⟨fun htype => absurd htype (by decide), ?_⟩
  rintro - c ⟨q, hput, hpred, -, hobject⟩ d hsub
  rw [script_resourceDeclared rfl, projectResourceDeclared, executed] at hput
  have hops : Op.put q ∈ declaredOps sensorEnv sampleDeclared := by
    refine (List.mem_append.mp hput).resolve_right fun hnone => ?_
    generalize Step.run _ _ _ = result at hnone
    rcases result with ⟨_ | _, s'⟩ <;> cases hnone
  have hmem : q ∈ projected sensorEnv [] sampleDeclared := (mem_projected_declared rfl).mpr (Or.inr hops)
  have hclass : ∀ q ∈ projected sensorEnv [] sampleDeclared, q.predicate = ⟨rdfType⟩ →
      q.object = picloudTerm "Resource" := by decide +kernel
  have hsubs : ∀ q ∈ graphAfter sensorEnv [sampleOntology], q.predicate = ⟨rdfsSubclassOf⟩ →
      q.subject = .named ⟨pc "Sensor"⟩ := by decide +kernel
  have hresource := hclass q hmem hpred
  rw [hobject, show c = .named ⟨pc "Sensor"⟩ from hsubs _ hsub rfl] at hresource
  exact absurd hresource (by decide)

/-- A node joins. -/
def joins : EventEnvelope := Projector.sampleJoin "https://picloud.local/n"

/-- The resource is an asset in either order, also when a node joins later. -/
theorem inference_in_any_order_sensor :
    ClosedInDefault (graphAfter sensorEnv [sampleOntology, sampleDeclared]) ∧
      quad "https://picloud.local/r" rdfType (picloudTerm "Asset") .default ∈
        graphAfter sensorEnv [sampleOntology, sampleDeclared, joins] ∧
      quad "https://picloud.local/r" rdfType (picloudTerm "Asset") .default ∈
        graphAfter sensorEnv [sampleDeclared, sampleOntology, joins] := by
  have hquiet : QuietRun sensorEnv [sampleOntology, sampleDeclared] := by
    refine ⟨⟨fun _ triples hparse t ht hpred => ?_, fun hne => absurd rfl hne⟩,
      quiet_sampleDeclared, trivial⟩
    cases hparse
    simp only [List.mem_cons, List.not_mem_nil, or_false] at ht
    rcases ht with rfl | rfl
    · exact ⟨_, rfl⟩
    · exact absurd hpred (by decide)
  have hasset : quad "https://picloud.local/r" rdfType (picloudTerm "Asset") .default ∈
      graphAfter sensorEnv [sampleOntology, sampleDeclared, joins] := by decide +kernel
  have hplain : PlainTyping (graphAfter sensorEnv [sampleDeclared, sampleOntology]) :=
    ⟨by decide +kernel, by decide +kernel⟩
  obtain ⟨hclosed, horder⟩ := inference_in_any_order sensorEnv
  exact ⟨hclosed _ hquiet, hasset, (horder [] sampleOntology [sampleDeclared] [joins] rfl
    (List.forall_mem_singleton.mpr rfl) (List.forall_mem_singleton.mpr (by decide)) hquiet
    (fun _ _ _ _ _ _ => rfl) hplain _ _).mp hasset⟩

end Picloud
