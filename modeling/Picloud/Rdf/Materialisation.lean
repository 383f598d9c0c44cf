import Picloud.Rdf.Inference
import Mathlib.Order.Bounds.Basic

/-!
# What the materialisations compute

Reference: `materialise_rdfs_subclass` and `materialise_owl_transitive_property`, with the number of quads
that they return.

Both loops end, and what they leave is the least set of quads above the store that is closed under their
rule. The properties that count as transitive are collected once, at the start of a call: a call can add the
type `owl:TransitiveProperty` to further properties when `rdf:type` itself is declared transitive, and then
the next call adds quads again.
-/

namespace Picloud

open Lib

/-! ## The counting loops -/

/-- Insert a quad and count it, unless the store has it. -/
def insertCounted (r : Store × ℕ) (q : Quad) : Store × ℕ :=
  if (r.1.quadsForPattern q.pattern).isEmpty then (r.1.insert q, r.2 + 1) else r

/-- The body of the loop over the `rdfs:subClassOf` quads. -/
def inferInstancesCounted (r : Store × ℕ) (sc : Quad) : Store × ℕ :=
  match sc.object with
  | .named superclass =>
    (r.1.quadsForPattern ⟨none, some ⟨rdfType⟩, some sc.subject.toTerm, some sc.graph⟩).foldl
      (fun r inst => insertCounted r ⟨inst.subject, ⟨rdfType⟩, .named superclass, sc.graph⟩) r
  | _ => r

/-- One pass over the superclasses. -/
def rdfsPassCounted (s : Store) : Store × ℕ :=
  (s.quadsForPattern { predicate := some ⟨rdfsSubclassOf⟩ }).foldl inferInstancesCounted (s, 0)

/-- `materialise_rdfs_subclass`, with the count it returns. -/
def materialiseRdfsSubclassCounted (fuel : ℕ) (s : Store) : Option (Store × ℕ) :=
  saturateCounted rdfsPassCounted fuel s

/-- The body of the loop over the quads of a transitive property. -/
def inferRightsCounted (prop : NamedNode) (r : Store × ℕ) (left : Quad) : Store × ℕ :=
  match left.object with
  | .named y =>
    (r.1.quadsForPattern ⟨some (.named y), some prop, none, some left.graph⟩).foldl
      (fun r right => insertCounted r ⟨left.subject, prop, right.object, left.graph⟩) r
  | _ => r

/-- One pass for one transitive property. -/
def transitivePassCounted (prop : NamedNode) (s : Store) : Store × ℕ :=
  (s.quadsForPattern { predicate := some prop }).foldl (inferRightsCounted prop) (s, 0)

/-- The loops for some properties, one after the other. -/
def closeProps (fuel : ℕ) : List NamedNode → Store → Option (Store × ℕ)
  | [], s => some (s, 0)
  | prop :: props, s =>
    (saturateCounted (transitivePassCounted prop) fuel s).bind fun r =>
      (closeProps fuel props r.1).map fun r' => (r'.1, r.2 + r'.2)

/-- `materialise_owl_transitive_property`, with the count it returns. -/
def materialiseOwlCounted (fuel : ℕ) (s : Store) : Option (Store × ℕ) :=
  closeProps fuel (transitiveProps s) s

/-! ## The loops count what they add -/

theorem counts_insert (q : Quad) : Counts (fun r => insertCounted r q) fun s => Store.insert s q := by
  intro (r : Store × ℕ)
  change (insertCounted r q).1 = r.1.insert q ∧
    (insertCounted r q).2 + r.1.length = r.2 + (r.1.insert q).length
  unfold insertCounted Store.insert
  by_cases hq : q ∈ r.1
  · have hfound : (r.1.quadsForPattern q.pattern).isEmpty = false := by
      rw [List.isEmpty_eq_false_iff_exists_mem]
      exact ⟨q, Store.mem_quadsForPattern.mpr ⟨hq, Quad.pattern_matches.mpr rfl⟩⟩
    rw [hfound, if_pos hq]
    exact ⟨rfl, rfl⟩
  · have hnone : (r.1.quadsForPattern q.pattern).isEmpty = true := by
      rw [List.isEmpty_iff, List.eq_nil_iff_forall_not_mem]
      intro q' hq'
      obtain ⟨hmem, hmatch⟩ := Store.mem_quadsForPattern.mp hq'
      exact hq (Quad.pattern_matches.mp hmatch ▸ hmem)
    rw [hnone, if_pos rfl, if_neg hq, List.length_append, List.length_singleton]
    exact ⟨rfl, by omega⟩

theorem counts_inferInstances (sc : Quad) :
    Counts (fun r => inferInstancesCounted r sc) fun s => inferInstances s sc := by
  intro (r : Store × ℕ)
  unfold inferInstancesCounted inferInstances
  cases sc.object with
  | named superclass =>
    exact Counts.foldl (f := fun s (inst : Quad) =>
      Store.insert s ⟨inst.subject, ⟨rdfType⟩, .named superclass, sc.graph⟩)
      (fun inst _ => counts_insert _) r
  | _ => exact ⟨rfl, rfl⟩

theorem rdfsPassCounted_eq (s : Store) : (rdfsPassCounted s).1 = rdfsPass s ∧
    (rdfsPassCounted s).2 + s.length = (rdfsPass s).length := by
  have h : Counts (fun r => List.foldl inferInstancesCounted r _) fun t => List.foldl inferInstances t _ :=
    Counts.foldl fun sc (_ : sc ∈ s.quadsForPattern { predicate := some ⟨rdfsSubclassOf⟩ }) =>
      counts_inferInstances sc
  have hs := h (s, 0)
  rw [Nat.zero_add] at hs
  exact hs

theorem counts_inferRights (prop : NamedNode) (left : Quad) :
    Counts (fun r => inferRightsCounted prop r left) fun s => inferRights prop s left := by
  intro (r : Store × ℕ)
  unfold inferRightsCounted inferRights
  cases left.object with
  | named y =>
    exact Counts.foldl (f := fun s (right : Quad) =>
      Store.insert s ⟨left.subject, prop, right.object, left.graph⟩)
      (fun right _ => counts_insert _) r
  | _ => exact ⟨rfl, rfl⟩

theorem transitivePassCounted_eq (prop : NamedNode) (s : Store) :
    (transitivePassCounted prop s).1 = transitivePass prop s ∧
      (transitivePassCounted prop s).2 + s.length = (transitivePass prop s).length := by
  have h : Counts (fun r => List.foldl (inferRightsCounted prop) r _)
      fun t => List.foldl (inferRights prop) t _ :=
    Counts.foldl fun left (_ : left ∈ s.quadsForPattern { predicate := some prop }) =>
      counts_inferRights prop left
  have hs := h (s, 0)
  rw [Nat.zero_add] at hs
  exact hs

/-! ## Sets closed under the rules -/

/-- The set is closed under `rdfs:subClassOf` with an IRI as superclass, graph by graph. -/
def SubclassRule (u : Set Quad) : Prop :=
  ∀ (x c : Subject) (d : NamedNode) (g : GraphName), ⟨c, ⟨rdfsSubclassOf⟩, .named d, g⟩ ∈ u →
    ⟨x, ⟨rdfType⟩, c.toTerm, g⟩ ∈ u → ⟨x, ⟨rdfType⟩, .named d, g⟩ ∈ u

/-- The set is closed under the transitivity of a property, graph by graph. -/
def TransitiveRule (p : NamedNode) (u : Set Quad) : Prop :=
  ∀ (x : Subject) (y : NamedNode) (z : Term) (g : GraphName), ⟨x, p, .named y, g⟩ ∈ u →
    ⟨.named y, p, z, g⟩ ∈ u → ⟨x, p, z, g⟩ ∈ u

/-- The quads of a store, as a set. -/
def quadsOf (s : Store) : Set Quad := { q | q ∈ s }

variable {s : Store} {p : NamedNode}

/-- A pass stays in a set that is closed under the rule. -/
theorem rdfsPass_subset {u : Set Quad} (hu : SubclassRule u) (hs : quadsOf s ⊆ u) :
    quadsOf (rdfsPass s) ⊆ u :=
  forall_rdfsPass hu hs

/-- A path of a set that is closed under the transitivity of its property is in the set. -/
theorem Chain.mem_set {g : GraphName} {x : Subject} {z : Term} (h : Chain s p g x z) {u : Set Quad}
    (hs : quadsOf s ⊆ u) (hu : TransitiveRule p u) :
    ⟨x, p, z, g⟩ ∈ u := by
  induction h with
  | single hmem => exact hs hmem
  | step hmem _ ih => exact hu _ _ _ _ (hs hmem) ih

/-! ## Subclasses -/

/-- A closed store is a fixed point of the pass, which counts nothing there. -/
theorem rdfsPassCounted_of_closed (h : SubclassRule (quadsOf s)) :
    rdfsPassCounted s = (s, 0) := by
  have hfix : rdfsPass s = s := by
    obtain ⟨l, hl, -, hnew, -⟩ := adds_rdfsPass (Adds.refl (combinations ⟨rdfType⟩ s) s)
    refine hl.trans ?_
    rw [List.append_right_eq_self, List.eq_nil_iff_forall_not_mem]
    intro q hq
    refine hnew q hq (rdfsPass_subset h subset_rfl ?_)
    rw [hl]
    exact List.mem_append_right s hq
  obtain ⟨hstore, hcount⟩ := rdfsPassCounted_eq s
  rw [hfix] at hstore hcount
  exact Prod.ext hstore (by omega)

/-- **RDFS materialisation computes the closure.** With enough fuel the loop ends; the store it leaves is the
least set above the store that is closed under the rule, the count is the number of quads added, and a
second call adds nothing. -/
theorem materialiseRdfsSubclass_isLeast (s : Store) :
    ∃ added : List Quad,
      (∃ enough, ∀ fuel, enough ≤ fuel →
        materialiseRdfsSubclassCounted fuel s = some (s ++ added, added.length)) ∧
      added.Nodup ∧ (∀ q ∈ added, q ∉ s) ∧
      IsLeast { u | quadsOf s ⊆ u ∧ SubclassRule u } (quadsOf (s ++ added)) ∧
      ∀ fuel, materialiseRdfsSubclassCounted (fuel + 1) (s ++ added) = some (s ++ added, 0) := by
  obtain ⟨added, hend, hfix, hadds, hkept⟩ := saturateCounted_spec (s := s) rdfsPassCounted_eq
    (fun _ h => adds_rdfsPass h)
  have hrule : SubclassRule (quadsOf (s ++ added)) := rdfsClosed_of_fixed hadds hfix
  obtain ⟨l, hl, hnodup, hnew, -⟩ := hadds
  obtain rfl : added = l := List.append_cancel_left hl
  refine ⟨added, ⟨_, fun fuel hfuel => hend fuel (Nat.lt_of_succ_le hfuel)⟩, hnodup, hnew,
    ⟨⟨fun q hq => List.mem_append_left added hq, hrule⟩, ?_⟩, fun fuel => ?_⟩
  · rintro u ⟨hsub, hu⟩
    exact hkept (fun t => quadsOf t ⊆ u) (fun t ht => rdfsPass_subset hu ht) hsub
  · exact saturateCounted_of_fixed (rdfsPassCounted_of_closed hrule) fuel

/-! ## Transitive properties -/

/-- What the loop for one property leaves: the least set above the store that is closed under its
transitivity, with quads of the property only. -/
theorem transitiveLoop_spec (p : NamedNode) (s : Store) :
    ∃ l, (∃ enough, ∀ fuel, enough ≤ fuel →
        saturateCounted (transitivePassCounted p) fuel s = some (s ++ l, l.length)) ∧
      TransitiveRule p (quadsOf (s ++ l)) ∧ Adds (combinations p s) s (s ++ l) ∧
      ∀ u, quadsOf s ⊆ u → TransitiveRule p u → quadsOf (s ++ l) ⊆ u := by
  obtain ⟨l, hend, hfix, hadds, hkept⟩ := saturateCounted_spec (s := s) (transitivePassCounted_eq p)
    (fun _ h => adds_transitivePass h)
  refine ⟨l, ⟨_, fun fuel hfuel => hend fuel (Nat.lt_of_succ_le hfuel)⟩,
    transitiveAt_of_fixed hadds hfix, hadds, fun u hsub hu q hq => ?_⟩
  have hpaths := hkept (Paths s p) (fun _ ht => Paths.transitivePass ht) (Paths.refl s p)
  rcases hadds.mem_cases hq with hold | hnew
  · exact hsub hold
  · obtain rfl : q.predicate = p := (mem_combinations.mp hnew).1
    exact (hpaths q hq rfl).mem_set hsub hu

/-- Quads of other properties do not break the transitivity of a property. -/
theorem TransitiveRule.append {s l : List Quad} (h : TransitiveRule p (quadsOf s))
    (hl : ∀ q ∈ l, q.predicate ≠ p) : TransitiveRule p (quadsOf (s ++ l)) := by
  have hold : ∀ q ∈ s ++ l, q.predicate = p → q ∈ s := fun q hq hp =>
    (List.mem_append.mp hq).resolve_right fun hin => hl q hin hp
  intro x y z g hleft hright
  exact List.mem_append_left l (h x y z g (hold _ hleft rfl) (hold _ hright rfl))

/-- The loops for several properties, one after the other. -/
theorem closeProps_spec (props : List NamedNode) (s : Store) :
    ∃ added : List Quad,
      (∃ enough, ∀ fuel, enough ≤ fuel →
        closeProps fuel props s = some (s ++ added, added.length)) ∧
      added.Nodup ∧ (∀ q ∈ added, q ∉ s ∧ q.predicate ∈ props) ∧
      IsLeast { u | quadsOf s ⊆ u ∧ ∀ p ∈ props, TransitiveRule p u } (quadsOf (s ++ added)) := by
  induction props generalizing s with
  | nil =>
    refine ⟨[], ⟨0, fun fuel _ => by rw [closeProps, List.append_nil, List.length_nil]⟩,
      List.nodup_nil, by simp, ?_⟩
    rw [List.append_nil]
    exact ⟨⟨subset_rfl, by simp⟩, fun u hu => hu.1⟩
  | cons p props ih =>
    obtain ⟨l, ⟨enough, hend⟩, hrule, hadds, hleast⟩ := transitiveLoop_spec p s
    obtain ⟨m, ⟨enough', hend'⟩, hnodup', hnew', ⟨-, hrules'⟩, hleast'⟩ := ih (s ++ l)
    obtain ⟨l', hl', hnodup, hnew, hcomb⟩ := hadds
    obtain rfl : l = l' := List.append_cancel_left hl'
    have hboth : quadsOf (s ++ (l ++ m)) = quadsOf (s ++ l ++ m) := by rw [List.append_assoc]
    refine ⟨l ++ m, ⟨max enough enough', fun fuel hfuel => ?_⟩, ?_, fun q hq => ?_, ⟨?_, ?_⟩, ?_⟩
    · rw [closeProps, hend fuel (le_trans (le_max_left _ _) hfuel), Option.bind_some,
        hend' fuel (le_trans (le_max_right _ _) hfuel), Option.map_some, List.append_assoc, List.length_append]
    · refine List.nodup_append.mpr ⟨hnodup, hnodup', ?_⟩
      rintro q hq q' hq' rfl
      exact (hnew' q hq').1 (List.mem_append_right s hq)
    · rcases List.mem_append.mp hq with hfirst | hrest
      · exact ⟨hnew q hfirst, (mem_combinations.mp (hcomb q hfirst)).1 ▸ List.mem_cons_self⟩
      · exact ⟨fun hs => (hnew' q hrest).1 (List.mem_append_left l hs),
          List.mem_cons_of_mem p (hnew' q hrest).2⟩
    · exact fun q hq => List.mem_append_left (l ++ m) hq
    · rw [hboth]
      -- the later loops keep what the first has established, unless they establish it again
      by_cases hagain : p ∈ props
      · rintro p' (_ | ⟨_, hp'⟩)
        · exact hrules' p hagain
        · exact hrules' p' hp'
      · rintro p' (_ | ⟨_, hp'⟩)
        · exact hrule.append fun q hq hpq => hagain (hpq ▸ (hnew' q hq).2)
        · exact hrules' p' hp'
    · rintro u ⟨hsub, hu⟩
      rw [hboth]
      exact hleast' ⟨hleast u hsub (hu p List.mem_cons_self),
        fun p' hp' => hu p' (List.mem_cons_of_mem p hp')⟩

theorem mem_transitiveProps :
    p ∈ transitiveProps s ↔ ∃ g, ⟨.named p, ⟨rdfType⟩, node owlTransitiveProperty, g⟩ ∈ s := by
  constructor
  · intro hp
    obtain ⟨⟨subject, predicate, object, graph⟩, hq, hsome⟩ := List.mem_filterMap.mp hp
    obtain ⟨hmem, hmatch⟩ := Store.mem_quadsForPattern.mp hq
    obtain ⟨-, hpred, hobj, -⟩ := Pattern.matches_iff.mp hmatch
    rw [admits_some] at hpred hobj
    dsimp only at hsome hpred hobj
    subst hpred hobj
    cases subject with
    | named n =>
      cases hsome
      exact ⟨graph, hmem⟩
    | _ => cases hsome
  · rintro ⟨g, hmem⟩
    exact List.mem_filterMap.mpr
      ⟨_, Store.mem_quadsForPattern.mpr ⟨hmem, by simp [Pattern.matches_iff]⟩, rfl⟩

/-- Where the rules already hold the loops add nothing. -/
theorem eq_nil_of_isLeast {props : List NamedNode} {s added : List Quad}
    (hnew : ∀ q ∈ added, q ∉ s ∧ q.predicate ∈ props)
    (hleast : IsLeast { u | quadsOf s ⊆ u ∧ ∀ p ∈ props, TransitiveRule p u } (quadsOf (s ++ added)))
    (h : ∀ p ∈ props, TransitiveRule p (quadsOf s)) : added = [] := by
  have hsub : quadsOf (s ++ added) ⊆ quadsOf s := hleast.2 ⟨subset_rfl, h⟩
  exact List.eq_nil_iff_forall_not_mem.mpr fun q hq =>
    (hnew q hq).1 (hsub (List.mem_append_right s hq))

/-- **Transitive-property materialisation computes the closure** for the properties that the store declares
transitive at the start, with quads of these properties only. A second call adds nothing exactly when the
properties that the first call has itself declared transitive are transitive already; in particular when
`rdf:type` is not declared transitive. -/
theorem materialiseOwl_isLeast (s : Store) :
    ∃ added : List Quad,
      (∃ enough, ∀ fuel, enough ≤ fuel →
        materialiseOwlCounted fuel s = some (s ++ added, added.length)) ∧
      added.Nodup ∧ (∀ q ∈ added, q ∉ s ∧ q.predicate ∈ transitiveProps s) ∧
      IsLeast { u | quadsOf s ⊆ u ∧ ∀ p ∈ transitiveProps s, TransitiveRule p u }
        (quadsOf (s ++ added)) ∧
      ∃ again : List Quad,
        (∃ enough, ∀ fuel, enough ≤ fuel →
          materialiseOwlCounted fuel (s ++ added) = some (s ++ added ++ again, again.length)) ∧
        (again.length = 0 ↔ ∀ p ∈ transitiveProps (s ++ added), p ∉ transitiveProps s →
          TransitiveRule p (quadsOf (s ++ added))) ∧
        (⟨rdfType⟩ ∉ transitiveProps s → again.length = 0) := by
  obtain ⟨added, hend, hnodup, hnew, hleast⟩ := closeProps_spec (transitiveProps s) s
  obtain ⟨again, hend', -, hnew', hleast'⟩ :=
    closeProps_spec (transitiveProps (s ++ added)) (s ++ added)
  have hzero : again.length = 0 ↔ ∀ p ∈ transitiveProps (s ++ added), p ∉ transitiveProps s →
      TransitiveRule p (quadsOf (s ++ added)) := by
    constructor
    · intro hlength p hp _
      have hrule := hleast'.1.2 p hp
      rwa [List.eq_nil_of_length_eq_zero hlength, List.append_nil] at hrule
    · intro hrules
      refine List.length_eq_zero_iff.mpr (eq_nil_of_isLeast hnew' hleast' fun p hp => ?_)
      by_cases hold : p ∈ transitiveProps s
      · exact hleast.1.2 p hold
      · exact hrules p hp hold
  refine ⟨added, hend, hnodup, hnew, hleast, again, hend', hzero, fun htype => hzero.mpr ?_⟩
  -- a property that has become transitive has got its type from the first call
  intro p hp hnot
  obtain ⟨g, hmem⟩ := mem_transitiveProps.mp hp
  rcases List.mem_append.mp hmem with hold | hadd
  · exact absurd (mem_transitiveProps.mpr ⟨g, hold⟩) hnot
  · exact absurd (hnew _ hadd).2 htype

/-- A store in which the type of types is transitive: the first call makes `ex:p` transitive. -/
def typeOfTypes : Store :=
  [⟨.named ⟨rdfType⟩, ⟨rdfType⟩, node owlTransitiveProperty, .default⟩,
    ⟨.named ⟨"ex:p"⟩, ⟨rdfType⟩, node "ex:C", .default⟩,
    ⟨.named ⟨"ex:C"⟩, ⟨rdfType⟩, node owlTransitiveProperty, .default⟩,
    ⟨.named ⟨"ex:a"⟩, ⟨"ex:p"⟩, node "ex:b", .default⟩,
    ⟨.named ⟨"ex:b"⟩, ⟨"ex:p"⟩, node "ex:c", .default⟩]

/-- A second call may add quads. -/
theorem not_materialiseOwl_twice :
    ¬ ∀ (s t u : Store) (n m fuel : ℕ), materialiseOwlCounted fuel s = some (t, n) →
      materialiseOwlCounted fuel t = some (u, m) → m = 0 := by
  intro h
  have hfirst : materialiseOwlCounted 5 typeOfTypes =
      some (typeOfTypes ++
        [⟨.named ⟨"ex:p"⟩, ⟨rdfType⟩, node owlTransitiveProperty, .default⟩], 1) := by
    decide +kernel
  have hsecond : materialiseOwlCounted 5 (typeOfTypes ++
      [⟨.named ⟨"ex:p"⟩, ⟨rdfType⟩, node owlTransitiveProperty, .default⟩]) =
      some (typeOfTypes ++
        [⟨.named ⟨"ex:p"⟩, ⟨rdfType⟩, node owlTransitiveProperty, .default⟩,
          ⟨.named ⟨"ex:a"⟩, ⟨"ex:p"⟩, node "ex:c", .default⟩], 1) := by
    decide +kernel
  exact absurd (h _ _ _ _ _ _ hfirst hsecond) (by decide)

end Picloud
