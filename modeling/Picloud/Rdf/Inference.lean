import Picloud.Rdf.Primitives
import Picloud.Lib.Saturate

/-!
# Materialised inference

Reference: `materialise_rdfs_subclass`, `materialise_owl_transitive_property` and `load_ontology` of
`picloud-rdf/src/implementation.rs`.

Both materialisations run passes until one infers nothing. A pass only combines subjects, objects
and graphs that are there, so the loops end, and what they leave is closed under their rule; the
second keeps what the first has established.
-/

namespace Picloud

open Lib

/-! ## The two loops -/

/-- The body of the loop over the `rdfs:subClassOf` quads: type the instances of the subclass with
the superclass, in the same graph. -/
def inferInstances (s : Store) (sc : Quad) : Store :=
  match sc.object with
  | .named superclass =>
    (s.quadsForPattern ⟨none, some ⟨rdfType⟩, some sc.subject.toTerm, some sc.graph⟩).foldl
      (fun s inst => s.insert ⟨inst.subject, ⟨rdfType⟩, .named superclass, sc.graph⟩) s
  -- a superclass that is no IRI is passed over
  | _ => s

/-- One pass of `materialise_rdfs_subclass`. -/
def rdfsPass (s : Store) : Store :=
  (s.quadsForPattern { predicate := some ⟨rdfsSubclassOf⟩ }).foldl inferInstances s

/-- Enough passes for any pass that combines what a store holds. -/
def passBound (s : Store) : ℕ := s.length * s.length * s.length + 1

/-- `materialise_rdfs_subclass`. -/
def materialiseRdfsSubclass (s : Store) : Store := saturate rdfsPass (passBound s) s

/-- The body of the loop over the quads of a transitive property: `(x, p, y)` and `(y, p, z)` give
`(x, p, z)`, in the same graph. -/
def inferRights (prop : NamedNode) (s : Store) (left : Quad) : Store :=
  match left.object with
  | .named y =>
    (s.quadsForPattern ⟨some (.named y), some prop, none, some left.graph⟩).foldl
      (fun s right => s.insert ⟨left.subject, prop, right.object, left.graph⟩) s
  | _ => s

/-- One pass for one transitive property. -/
def transitivePass (prop : NamedNode) (s : Store) : Store :=
  (s.quadsForPattern { predicate := some prop }).foldl (inferRights prop) s

/-- The IRIs declared as `owl:TransitiveProperty`, in any graph. -/
def transitiveProps (s : Store) : List NamedNode :=
  (s.quadsForPattern ⟨none, some ⟨rdfType⟩, some (node owlTransitiveProperty), none⟩).filterMap
    fun q => match q.subject with
      | .named n => some n
      | _ => none

/-- The fixed point for one transitive property. -/
def transitiveClosure (s : Store) (prop : NamedNode) : Store :=
  saturate (transitivePass prop) (passBound s) s

/-- `materialise_owl_transitive_property`. The properties are collected once, at the start. -/
def materialiseOwlTransitiveProperty (s : Store) : Store :=
  (transitiveProps s).foldl transitiveClosure s

/-- A triple of a document with its blank nodes renamed. -/
def renameTriple (f : String → String) (t : Triple) : Triple :=
  ⟨match t.subject with
    | .blank id => .blank (f id)
    | other => other,
   t.predicate,
   match t.object with
    | .blank id => .blank (f id)
    | other => other⟩

/-- `store.load_from_reader`: the document is parsed first, then all its quads are inserted. -/
def loadFromReader (env : ProjectorEnv) (turtle : String) (graph : GraphName) (s : Store) :
    List Op :=
  match env.turtle turtle with
  | .error e => [.fail ("ontology load failed: " ++ e)]
  | .ok triples => triples.map fun t => .put ((renameTriple (env.rename s) t).inGraph graph)

/-- `load_ontology`. -/
def loadOntology (env : ProjectorEnv) (turtle : String) (graph : Option String) : Script :=
  let graphName := match graph with
    | some g => .named ⟨g⟩
    | none => .default
  [.ops (graph.toList.map (.named "invalid graph IRI: ")),
    .read (loadFromReader env turtle graphName),
    .update materialiseRdfsSubclass,
    .update materialiseOwlTransitiveProperty]

/-! ## The loops end -/

/-- The components of a quad all occur in the store. -/
def Within (s : Store) (q : Quad) : Prop :=
  (∃ a ∈ s, a.subject = q.subject) ∧ (∃ b ∈ s, b.object = q.object) ∧ ∃ c ∈ s, c.graph = q.graph

/-- The quads with a given predicate that are made of the components of a store. -/
def combinations (p : NamedNode) (s : Store) : List Quad :=
  s.flatMap fun a => s.flatMap fun b => s.map fun c => ⟨a.subject, p, b.object, c.graph⟩

theorem length_combinations (p : NamedNode) (s : Store) :
    (combinations p s).length < passBound s := by
  have hlen : (combinations p s).length = s.length * s.length * s.length := by
    simp [combinations, List.length_flatMap, Nat.mul_assoc]
  rw [hlen]
  exact Nat.lt_succ_self _

variable {p : NamedNode} {q : Quad} {s t : Store} {g : GraphName} {x : Subject} {z : Term}

theorem mem_combinations :
    q ∈ combinations p s ↔ q.predicate = p ∧ Within s q := by
  simp only [combinations, List.mem_flatMap, List.mem_map, Within]
  constructor
  · rintro ⟨a, ha, b, hb, c, hc, rfl⟩
    exact ⟨rfl, ⟨a, ha, rfl⟩, ⟨b, hb, rfl⟩, c, hc, rfl⟩
  · rintro ⟨rfl, ⟨a, ha, hs⟩, ⟨b, hb, ho⟩, c, hc, hg⟩
    exact ⟨a, ha, b, hb, c, hc, by rw [hs, ho, hg]⟩

/-- Combining what is there gives nothing but combinations of the start. -/
theorem within_of_adds (h : Adds (combinations p s) s t) (hq : q ∈ t) : Within s q := by
  rcases h.mem_cases hq with hs | hU
  · exact ⟨⟨q, hs, rfl⟩, ⟨q, hs, rfl⟩, q, hs, rfl⟩
  · exact (mem_combinations.mp hU).2

/-- Inserting a quad made of two that are there. -/
theorem adds_insert_of_adds {u : Store} (h : Adds (combinations p s) s t) {a b : Quad} (ha : a ∈ t)
    (hb : b ∈ t) :
    Adds (combinations p s) u (u.insert ⟨a.subject, p, b.object, b.graph⟩) := by
  obtain ⟨hsub, -, -⟩ := within_of_adds h ha
  obtain ⟨-, hobj, hgraph⟩ := within_of_adds h hb
  exact adds_insert u (mem_combinations.mpr ⟨rfl, hsub, hobj, hgraph⟩)

theorem adds_inferInstances (h : Adds (combinations ⟨rdfType⟩ s) s t) {sc : Quad} (hsc : sc ∈ t) :
    Adds (combinations ⟨rdfType⟩ s) t (inferInstances t sc) := by
  unfold inferInstances
  split
  · next superclass hobj =>
    refine Adds.foldl (s := t) (fun inst hinst u _ => ?_) (Adds.refl _ t)
    have hins := adds_insert_of_adds (u := u) h (Store.mem_quadsForPattern.mp hinst).1 hsc
    rwa [hobj] at hins
  · exact Adds.refl _ t

theorem adds_rdfsPass (h : Adds (combinations ⟨rdfType⟩ s) s t) :
    Adds (combinations ⟨rdfType⟩ s) t (rdfsPass t) := by
  refine Adds.foldl (s := t) (fun sc hsc u hu => ?_) (Adds.refl _ t)
  exact adds_inferInstances (h.trans hu) (hu.subset (Store.mem_quadsForPattern.mp hsc).1)

theorem adds_inferRights (h : Adds (combinations p s) s t) {left : Quad} (hleft : left ∈ t) :
    Adds (combinations p s) t (inferRights p t left) := by
  unfold inferRights
  split
  · next y hobj =>
    refine Adds.foldl (s := t) (fun right hright u _ => ?_) (Adds.refl _ t)
    obtain ⟨hmem, hmatch⟩ := Store.mem_quadsForPattern.mp hright
    have hgraph : left.graph = right.graph := by
      simpa using (Pattern.matches_iff.mp hmatch).2.2.2
    rw [hgraph]
    exact adds_insert_of_adds h hleft hmem
  · exact Adds.refl _ t

theorem adds_transitivePass (h : Adds (combinations p s) s t) :
    Adds (combinations p s) t (transitivePass p t) := by
  refine Adds.foldl (s := t) (fun left hleft u hu => ?_) (Adds.refl _ t)
  exact adds_inferRights (h.trans hu) (hu.subset (Store.mem_quadsForPattern.mp hleft).1)

/-- `materialise_rdfs_subclass` adds type quads and ends at a fixed point of its pass. -/
theorem materialiseRdfsSubclass_spec (s : Store) :
    Adds (combinations ⟨rdfType⟩ s) s (materialiseRdfsSubclass s) ∧
      rdfsPass (materialiseRdfsSubclass s) = materialiseRdfsSubclass s :=
  saturate_spec (fun _ h => adds_rdfsPass h) (length_combinations _ s)

/-- The loop for one property adds quads with that property and ends at a fixed point. -/
theorem transitiveClosure_spec (s : Store) (p : NamedNode) :
    Adds (combinations p s) s (transitiveClosure s p) ∧
      transitivePass p (transitiveClosure s p) = transitiveClosure s p :=
  saturate_spec (fun _ h => adds_transitivePass h) (length_combinations p s)

/-! ## What the fixed points are closed under -/

/-- A loop of growing stores that ends where it started has not moved. -/
theorem foldl_insert_mem {f : Quad → Quad} {l : List Quad}
    (h : l.foldl (fun s a => s.insert (f a)) s = t) {a : Quad} (ha : a ∈ l) : f a ∈ t := by
  induction l generalizing s with
  | nil => simp at ha
  | cons b bs ih =>
    rw [List.foldl_cons] at h
    rcases List.mem_cons.mp ha with rfl | hbs
    · have hmono : ∀ (l : List Quad) (u : Store), u ⊆ l.foldl (fun s a => s.insert (f a)) u := by
        intro l
        induction l with
        | nil => exact fun u => List.Subset.refl u
        | cons c cs ihc => exact fun u q hq => ihc _ (Store.mem_insert.mpr (Or.inl hq))
      rw [← h]
      exact hmono bs _ (Store.mem_insert.mpr (Or.inr rfl))
    · exact ih h hbs

/-- A loop whose body only adds, over a list it leaves unchanged: every turn has left it
unchanged. -/
theorem foldl_fixed {β : Type} {f : Store → β → Store} {U : List Quad} {bs : List β}
    (hadds : ∀ b ∈ bs, ∀ t, Adds U s t → Adds U t (f t b)) (hfix : bs.foldl f s = s) {b : β}
    (hb : b ∈ bs) : f s b = s := by
  induction bs with
  | nil => simp at hb
  | cons c cs ih =>
    rw [List.foldl_cons] at hfix
    have hc := hadds c List.mem_cons_self s (Adds.refl U s)
    have hrest : Adds U (f s c) (cs.foldl f (f s c)) :=
      Adds.foldl (fun d hd t ht => hadds d (List.mem_cons_of_mem c hd) t ht) hc
    have hsame : f s c = s := by
      apply hc.eq_of_length
      have h1 := hc.length_le.1
      have h2 := hrest.length_le.1
      rw [hfix] at h2
      omega
    rcases List.mem_cons.mp hb with rfl | hmem
    · exact hsame
    · rw [hsame] at hfix
      exact ih (fun d hd => hadds d (List.mem_cons_of_mem c hd)) hfix hmem

/-- The store is closed under `rdfs:subClassOf` with an IRI as superclass, graph by graph. -/
def RdfsClosed (s : Store) : Prop :=
  ∀ (x c : Subject) (d : NamedNode) (g : GraphName), ⟨c, ⟨rdfsSubclassOf⟩, .named d, g⟩ ∈ s →
    ⟨x, ⟨rdfType⟩, c.toTerm, g⟩ ∈ s → ⟨x, ⟨rdfType⟩, .named d, g⟩ ∈ s

/-- The store is closed under the transitivity of a property, graph by graph. -/
def TransitiveAt (p : NamedNode) (s : Store) : Prop :=
  ∀ (x : Subject) (y : NamedNode) (z : Term) (g : GraphName), ⟨x, p, .named y, g⟩ ∈ s →
    ⟨.named y, p, z, g⟩ ∈ s → ⟨x, p, z, g⟩ ∈ s

/-- A store that the pass over the superclasses leaves alone is closed under them. -/
theorem rdfsClosed_of_fixed (hadds : Adds (combinations ⟨rdfType⟩ s) s t) (hfix : rdfsPass t = t) :
    RdfsClosed t := by
  intro x c d g hsub htype
  have hturn := foldl_fixed (fun sc hsc u hu => adds_inferInstances (hadds.trans hu)
      (hu.subset (Store.mem_quadsForPattern.mp hsc).1)) hfix
    (Store.mem_quadsForPattern.mpr ⟨hsub, by simp [Pattern.matches_iff]⟩)
  exact foldl_insert_mem (f := fun inst => ⟨inst.subject, ⟨rdfType⟩, .named d, g⟩) hturn
    (Store.mem_quadsForPattern.mpr ⟨htype, by simp [Pattern.matches_iff]⟩)

/-- A store that the pass for a property leaves alone is closed under its transitivity. -/
theorem transitiveAt_of_fixed (hadds : Adds (combinations p s) s t) (hfix : transitivePass p t = t) :
    TransitiveAt p t := by
  intro x y z g hleft hright
  have hturn := foldl_fixed (fun left hl u hu => adds_inferRights (hadds.trans hu)
      (hu.subset (Store.mem_quadsForPattern.mp hl).1)) hfix
    (Store.mem_quadsForPattern.mpr ⟨hleft, by simp [Pattern.matches_iff]⟩)
  exact foldl_insert_mem (f := fun right => ⟨x, p, right.object, g⟩) hturn
    (Store.mem_quadsForPattern.mpr ⟨hright, by simp [Pattern.matches_iff]⟩)

/-- **`materialise_rdfs_subclass` reaches the closure.** -/
theorem rdfsClosed_materialiseRdfsSubclass (s : Store) : RdfsClosed (materialiseRdfsSubclass s) :=
  rdfsClosed_of_fixed (materialiseRdfsSubclass_spec s).1 (materialiseRdfsSubclass_spec s).2

/-- The loop for one property reaches its closure. -/
theorem transitiveAt_transitiveClosure (s : Store) (p : NamedNode) :
    TransitiveAt p (transitiveClosure s p) :=
  transitiveAt_of_fixed (transitiveClosure_spec s p).1 (transitiveClosure_spec s p).2

/-! ## The second loop keeps what the first has established -/

/-- A path along a property, through IRIs, in one graph. -/
inductive Chain (s : Store) (p : NamedNode) (g : GraphName) : Subject → Term → Prop
  | single {x : Subject} {z : Term} : ⟨x, p, z, g⟩ ∈ s → Chain s p g x z
  | step {x : Subject} {y : NamedNode} {z : Term} :
      ⟨x, p, .named y, g⟩ ∈ s → Chain s p g (.named y) z → Chain s p g x z

theorem Chain.trans {y : NamedNode} (hxy : Chain s p g x (.named y))
    (hyz : Chain s p g (.named y) z) :
    Chain s p g x z := by
  generalize hw : Term.named y = w at hxy
  induction hxy with
  | single hmem =>
    subst hw
    exact .step hmem hyz
  | step hmem _ ih => exact .step hmem (ih hw)

/-- A path becomes an edge where the property is transitive. -/
theorem Chain.mem (h : Chain s p g x z) (hst : s ⊆ t) (ht : TransitiveAt p t) : ⟨x, p, z, g⟩ ∈ t := by
  induction h with
  | single hmem => exact hst hmem
  | step hmem _ ih => exact ht _ _ _ _ (hst hmem) ih

/-- Every quad of `t` with the property is a path of `s`. -/
def Paths (s : Store) (p : NamedNode) (t : Store) : Prop :=
  ∀ q ∈ t, q.predicate = p → Chain s p q.graph q.subject q.object

theorem Paths.refl (s : Store) (p : NamedNode) : Paths s p s := by
  rintro ⟨x, r, z, g⟩ hq rfl
  exact .single hq

theorem Paths.inferRights (ht : Paths s p t) {left : Quad} (hleft : left ∈ t)
    (hp : left.predicate = p) : Paths s p (inferRights p t left) := by
  unfold Picloud.inferRights
  split
  · next y hobj =>
    refine List.foldlRecOn _ _ ht fun u hu right hright q hq hqp => ?_
    rcases Store.mem_insert.mp hq with hold | rfl
    · exact hu q hold hqp
    · obtain ⟨hin, hmatch⟩ := Store.mem_quadsForPattern.mp hright
      obtain ⟨hs, hpr, -, hg⟩ := Pattern.matches_iff.mp hmatch
      rw [admits_some] at hs hpr hg
      have hxy : Chain s p left.graph left.subject (.named y) := hobj ▸ ht left hleft hp
      have hyz : Chain s p left.graph (.named y) right.object := by
        rw [hs, hg]
        exact ht right hin hpr.symm
      exact hxy.trans hyz
  · exact ht

theorem Paths.transitivePass (ht : Paths s p t) :
    Paths s p (transitivePass p t) := by
  -- the quads the pass runs over stay in the store while it runs
  have hfold : t ⊆ Picloud.transitivePass p t ∧ Paths s p (Picloud.transitivePass p t) := by
    refine List.foldlRecOn (motive := fun u => t ⊆ u ∧ Paths s p u) _ _
      ⟨List.Subset.refl t, ht⟩ fun u hu left hl => ?_
    obtain ⟨hin, hmatch⟩ := Store.mem_quadsForPattern.mp hl
    obtain ⟨-, hpr, -, -⟩ := Pattern.matches_iff.mp hmatch
    have hgrow := (adds_inferRights (Adds.refl (combinations p u) u) (hu.1 hin)).subset
    exact ⟨fun q hq => hgrow (hu.1 hq), hu.2.inferRights (hu.1 hin) (admits_some.mp hpr).symm⟩
  exact hfold.2

/-- Every quad that the loop for one property adds is a path of the start. -/
theorem paths_transitiveClosure (s : Store) (p : NamedNode) : Paths s p (transitiveClosure s p) :=
  saturate_invariant (fun _ ht => Paths.transitivePass ht) (Paths.refl s p)

/-- The loop for one property leaves the quads of the other properties alone. -/
theorem mem_transitiveClosure_of_ne (hne : q.predicate ≠ p) :
    q ∈ transitiveClosure s p ↔ q ∈ s := by
  have hadds := (transitiveClosure_spec s p).1
  refine ⟨fun hq => ?_, fun hq => hadds.subset hq⟩
  exact (hadds.mem_cases hq).resolve_right fun hU => hne (mem_combinations.mp hU).1

/-- Types inherited along a path of types. -/
theorem RdfsClosed.chain_type (hs : RdfsClosed s) (h : Chain s ⟨rdfType⟩ g x z) {c : Subject}
    {d : NamedNode} (hz : z = c.toTerm) (hsub : ⟨c, ⟨rdfsSubclassOf⟩, .named d, g⟩ ∈ s) :
    Chain s ⟨rdfType⟩ g x (.named d) := by
  induction h with
  | single hmem =>
    subst hz
    exact .single (hs _ c d g hsub hmem)
  | step hmem _ ih => exact .step hmem (ih hz)

/-- Types inherited along a path of superclasses. -/
theorem RdfsClosed.chain_subclass (hs : RdfsClosed s) {c : Subject}
    (h : Chain s ⟨rdfsSubclassOf⟩ g c z) {d : NamedNode} (hz : z = .named d)
    (htype : ⟨x, ⟨rdfType⟩, c.toTerm, g⟩ ∈ s) :
    ⟨x, ⟨rdfType⟩, .named d, g⟩ ∈ s := by
  induction h with
  | single hmem =>
    subst hz
    exact hs x _ d g hmem htype
  | step hmem _ ih => exact ih hz (hs x _ _ g hmem htype)

/-- Making one property transitive keeps the closure under `rdfs:subClassOf`, also when the property
is `rdf:type` or `rdfs:subClassOf` itself. -/
theorem RdfsClosed.transitiveClosure (hs : RdfsClosed s) (p : NamedNode) :
    RdfsClosed (transitiveClosure s p) := by
  have hgrow : s ⊆ Picloud.transitiveClosure s p := (transitiveClosure_spec s p).1.subset
  have htrans := transitiveAt_transitiveClosure s p
  intro x c d g hsub htype
  by_cases hpt : p = ⟨rdfType⟩
  · subst hpt
    have hsub' := (mem_transitiveClosure_of_ne fun heq => rdfType_ne_rdfsSubclassOf
      (congrArg NamedNode.value heq).symm).mp hsub
    have hchain := paths_transitiveClosure s _ _ htype rfl
    exact (hs.chain_type hchain rfl hsub').mem hgrow htrans
  · have htype' := (mem_transitiveClosure_of_ne fun heq => hpt heq.symm).mp htype
    by_cases hps : p = ⟨rdfsSubclassOf⟩
    · subst hps
      have hchain := paths_transitiveClosure s _ _ hsub rfl
      exact hgrow (hs.chain_subclass hchain rfl htype')
    · have hsub' := (mem_transitiveClosure_of_ne fun heq => hps heq.symm).mp hsub
      exact hgrow (hs x c d g hsub' htype')

/-- **The two materialisations together** leave a store closed under `rdfs:subClassOf`. -/
theorem rdfsClosed_materialise (s : Store) :
    RdfsClosed (materialiseOwlTransitiveProperty (materialiseRdfsSubclass s)) := by
  unfold materialiseOwlTransitiveProperty
  exact List.foldlRecOn _ _ (rdfsClosed_materialiseRdfsSubclass s)
    fun t ht p _ => ht.transitiveClosure p

/-! ## Properties of single quads -/

/-- The rules of both materialisations keep a property of quads. -/
structure KeptByInference (P : Quad → Prop) : Prop where
  subclass : ∀ (x c : Subject) (d : NamedNode) (g : GraphName),
    P ⟨c, ⟨rdfsSubclassOf⟩, .named d, g⟩ → P ⟨x, ⟨rdfType⟩, c.toTerm, g⟩ →
      P ⟨x, ⟨rdfType⟩, .named d, g⟩
  transitive : ∀ (p : NamedNode) (x : Subject) (y : NamedNode) (z : Term) (g : GraphName),
    P ⟨x, p, .named y, g⟩ → P ⟨.named y, p, z, g⟩ → P ⟨x, p, z, g⟩

variable {P : Quad → Prop}

/-- The pass over the superclasses keeps a property of quads that its rule keeps. -/
theorem forall_rdfsPass (h : ∀ (x c : Subject) (d : NamedNode) (g : GraphName),
    P ⟨c, ⟨rdfsSubclassOf⟩, .named d, g⟩ → P ⟨x, ⟨rdfType⟩, c.toTerm, g⟩ → P ⟨x, ⟨rdfType⟩, .named d, g⟩)
    (ht : ∀ q ∈ t, P q) : ∀ q ∈ rdfsPass t, P q := by
  unfold Picloud.rdfsPass
  refine List.foldlRecOn (motive := fun u => ∀ q ∈ u, P q) _ _ ht fun u hu sc hsc => ?_
  obtain ⟨hin, hmatch⟩ := Store.mem_quadsForPattern.mp hsc
  have hpred := admits_some.mp (Pattern.matches_iff.mp hmatch).2.1
  unfold inferInstances
  split
  · next d hobj =>
    refine List.foldlRecOn (motive := fun u => ∀ q ∈ u, P q) _ _ hu fun v hv inst hinst q hq => ?_
    rcases Store.mem_insert.mp hq with hold | rfl
    · exact hv q hold
    · obtain ⟨hinu, hm⟩ := Store.mem_quadsForPattern.mp hinst
      obtain ⟨-, hp, ho, hg⟩ := Pattern.matches_iff.mp hm
      rw [admits_some] at hp ho hg
      refine h inst.subject sc.subject d sc.graph ?_ ?_
      · rw [hpred, ← hobj]
        exact ht sc hin
      · rw [hp, ho, hg]
        exact hu inst hinu
  · exact hu

theorem KeptByInference.materialiseRdfsSubclass (h : KeptByInference P) (hs : ∀ q ∈ s, P q) :
    ∀ q ∈ materialiseRdfsSubclass s, P q :=
  saturate_invariant (I := fun t => ∀ q ∈ t, P q) (fun _ ht => forall_rdfsPass h.subclass ht) hs

/-- A path has the property of its edges. -/
theorem KeptByInference.chain (h : KeptByInference P) (hs : ∀ q ∈ s, P q) (hc : Chain s p g x z) :
    P ⟨x, p, z, g⟩ := by
  induction hc with
  | single hmem => exact hs _ hmem
  | step hmem _ ih => exact h.transitive _ _ _ _ _ (hs _ hmem) ih

theorem KeptByInference.materialiseOwl (h : KeptByInference P) (hs : ∀ q ∈ s, P q) :
    ∀ q ∈ materialiseOwlTransitiveProperty s, P q := by
  unfold materialiseOwlTransitiveProperty
  refine List.foldlRecOn (motive := fun u => ∀ q ∈ u, P q) _ _ hs fun u hu prop _ q hq => ?_
  by_cases hp : q.predicate = prop
  · subst hp
    exact h.chain hu (paths_transitiveClosure u _ q hq rfl)
  · exact hu q ((mem_transitiveClosure_of_ne hp).mp hq)

end Picloud
