import Picloud.Rdf.Facts

/-!
# Cascading deletion of a product

Reference: `project_product_deleted` of `picloud-rdf/src/implementation.rs`.

The deletion takes what is about the product, the graph of the product, and in two passes what is about its
children: the subjects with its name as `picloud:product`, and the subjects with `/products/{name}/` somewhere
in their IRIs. The second pass also finds resources of other products.
-/

namespace Picloud

open Lib

/-! ## What belongs to whom -/

/-- A name of letters, digits and hyphens. -/
def IsSlug (name : String) : Prop := name ≠ "" ∧ ∀ c ∈ name.toList, c.isAlphanum = true ∨ c = '-'

instance (name : String) : Decidable (IsSlug name) := inferInstanceAs (Decidable (_ ∧ _))

/-- The IRI lies under that of the product. -/
def Under (env : ProjectorEnv) (p iri : String) : Prop := (env.iris.product p ++ "/").toList <+: iri.toList

/-- The IRI is of the cluster and of no product. -/
def OfPlatform (env : ProjectorEnv) (iri : String) : Prop :=
  env.iris.clusterRoot.toList <+: iri.toList ∧ ¬ (env.iris.clusterRoot ++ "products/").toList <+: iri.toList

/-- The subject is an IRI of another product or of the platform. -/
def Elsewhere (env : ProjectorEnv) (p : String) (x : Subject) : Prop :=
  ∃ iri, x = .named ⟨iri⟩ ∧ env.checks.iri iri = none ∧
    ((∃ p', IsSlug p' ∧ p' ≠ p ∧ (iri = env.iris.product p' ∨ Under env p' iri)) ∨ OfPlatform env iri)

/-- The subject has the product as its `picloud:product`. -/
def Carries (s : Store) (p : String) (x : Subject) : Prop :=
  ⟨x, ⟨pc "product"⟩, simple p, .default⟩ ∈ s

/-- The subject is the product, carries its name or lies under its IRI. -/
def BelongsTo (env : ProjectorEnv) (p : String) (s : Store) (x : Subject) : Prop :=
  x = .named ⟨env.iris.product p⟩ ∨ Carries s p x ∨ ∃ iri, x = .named ⟨iri⟩ ∧ Under env p iri

/-- What a query for the path of the product looks for. -/
def productPath (p : String) : String := "/products/" ++ p ++ "/"

/-- Nothing of the product is left in the default graph and in its own graph, and what is elsewhere stays. -/
structure DeletesExactly (env : ProjectorEnv) (p : String) (s s' : Store) : Prop where
  complete : ∀ q ∈ s', q.graph = .default ∨ q.graph = .named ⟨env.iris.productGraph p⟩ →
    ¬ BelongsTo env p s q.subject
  frame : ∀ q : Quad, Elsewhere env p q.subject → (q ∈ s' ↔ q ∈ s)

/-- The graph keeps the product apart from what is elsewhere. -/
structure ProductApart (env : ProjectorEnv) (p : String) (s : Store) : Prop where
  /-- What is of the product is an IRI. -/
  iris : ∀ q ∈ s, q.graph = .default → BelongsTo env p s q.subject →
    ∃ iri, q.subject = .named ⟨iri⟩ ∧ env.checks.iri iri = none
  /-- The graph of the product is about nothing elsewhere. -/
  graph : ∀ q ∈ s, q.graph = .named ⟨env.iris.productGraph p⟩ → ¬ Elsewhere env p q.subject
  /-- Nothing elsewhere carries the name of the product. -/
  property : ∀ x, Elsewhere env p x → ¬ Carries s p x
  /-- No IRI elsewhere has the path of the product in it. -/
  path : ∀ q ∈ s, q.graph = .default → Elsewhere env p q.subject →
    ∀ iri, q.subject = .named ⟨iri⟩ → containsText iri (productPath p) = false

/-! ## What the deletion takes -/

section Deletion

variable {env : ProjectorEnv} {event : EventEnvelope} {s : Store} {p : String} {q : Quad}

theorem aboutIri_matches_eq_false {subject : String} :
    (aboutIri subject).matches q = false ↔ q.subject ≠ .named ⟨subject⟩ := by
  rw [Bool.eq_false_iff, Ne, Pattern.matches_iff, aboutIri]
  simp only [admits_some, admits_none, and_true]
  exact ne_comm

theorem mem_tryRemoveAbout {op : Op} {subject : String} :
    op ∈ tryRemoveAbout env subject ↔ env.checks.iri subject = none ∧ op = .del (aboutIri subject) := by
  rw [tryRemoveAbout]
  cases env.checks.iri subject <;> simp

/-- The rows of the first query. -/
theorem mem_removeChildrenByProperty {op : Op} : op ∈ removeChildrenByProperty env p s ↔
    ∃ x, Carries s p x ∧ env.checks.iri x.text = none ∧ op = .del (aboutIri x.text) := by
  simp only [removeChildrenByProperty, List.mem_flatMap, mem_tryRemoveAbout, (env.scan_perm _).mem_iff,
    Store.mem_quadsForPattern, Pattern.matches_iff, admits_some, admits_none, true_and]
  constructor
  · rintro ⟨⟨x, _, _, _⟩, ⟨hmem, rfl, rfl, rfl⟩, hop⟩
    exact ⟨x, hmem, hop⟩
  · rintro ⟨x, hmem, hop⟩
    exact ⟨_, ⟨hmem, rfl, rfl, rfl⟩, hop⟩

/-- The rows of the second query. -/
theorem mem_removeChildrenByPath {op : Op} : op ∈ removeChildrenByPath env p s ↔
    ∃ iri, (∃ q ∈ s, q.graph = .default ∧ q.subject = .named ⟨iri⟩) ∧
      containsText iri (productPath p) = true ∧ env.checks.iri iri = none ∧ op = .del (aboutIri iri) := by
  simp only [removeChildrenByPath, List.mem_flatMap, (env.scan_perm _).mem_iff, Store.mem_quadsForPattern,
    Pattern.matches_iff, admits_some, admits_none, true_and]
  constructor
  · rintro ⟨q, ⟨hmem, hgraph⟩, hop⟩
    cases hsubject : q.subject with
    | named n =>
      rw [hsubject] at hop
      simp only at hop
      split at hop
      · next hpath =>
        exact ⟨n.value, ⟨q, hmem, hgraph.symm, hsubject⟩, hpath, mem_tryRemoveAbout.mp hop⟩
      · simp at hop
    | _ => simp [hsubject] at hop
  · rintro ⟨iri, ⟨q, hmem, hgraph, hsubject⟩, hpath, hop⟩
    refine ⟨q, ⟨hmem, hgraph.symm⟩, ?_⟩
    rw [hsubject]
    simp only
    rw [if_pos (by exact hpath)]
    exact mem_tryRemoveAbout.mpr hop

/-- The subject shares its text with one that carries the name of the product. -/
def FoundByProperty (env : ProjectorEnv) (p : String) (s : Store) (x : Subject) : Prop :=
  ∃ iri, x = .named ⟨iri⟩ ∧ env.checks.iri iri = none ∧ ∃ x', Carries s p x' ∧ x'.text = iri

/-- The subject has the path of the product in its IRI. -/
def FoundByPath (env : ProjectorEnv) (p : String) (s : Store) (x : Subject) : Prop :=
  ∃ iri, x = .named ⟨iri⟩ ∧ env.checks.iri iri = none ∧ containsText iri (productPath p) = true ∧
    ∃ q ∈ s, q.graph = .default ∧ q.subject = x

/-- Removals of what is about some IRIs. -/
theorem mem_runOps_removeAbout {C : TermChecks} {ops : List Op} {P : String → Prop}
    (hops : ∀ op, op ∈ ops ↔ ∃ iri, P iri ∧ op = .del (aboutIri iri)) :
    q ∈ (runOps C s ops).2 ↔ q ∈ s ∧ ∀ iri, P iri → q.subject ≠ .named ⟨iri⟩ := by
  have hdels : ∀ op ∈ ops, ∃ pattern, op = .del pattern := by
    intro op hop
    obtain ⟨iri, -, rfl⟩ := (hops op).mp hop
    exact ⟨_, rfl⟩
  rw [mem_runOps_of_dels hdels]
  refine and_congr_right fun _ => ?_
  constructor
  · intro h iri hiri
    exact aboutIri_matches_eq_false.mp (h _ ((hops _).mpr ⟨iri, hiri, rfl⟩))
  · intro h pattern hpattern
    obtain ⟨iri, hiri, heq⟩ := (hops _).mp hpattern
    rw [Op.del.inj heq]
    exact aboutIri_matches_eq_false.mpr (h iri hiri)

/-- The removals of the first step. -/
theorem mem_removeProduct {s₁ : Store} (hrun : s₁ = (runOps env.checks s
      (removeTriplesAboutAllGraphs (env.iris.product p) ++
        [.named "invalid graph IRI: " (env.iris.productGraph p),
          .del { graph := some (.named ⟨env.iris.productGraph p⟩) }])).2)
    (hok : (runOps env.checks s (removeTriplesAboutAllGraphs (env.iris.product p) ++
      [.named "invalid graph IRI: " (env.iris.productGraph p),
        .del { graph := some (.named ⟨env.iris.productGraph p⟩) }])).1 = .ok ()) :
    q ∈ s₁ ↔ q ∈ s ∧ q.subject ≠ .named ⟨env.iris.product p⟩ ∧
      q.graph ≠ .named ⟨env.iris.productGraph p⟩ := by
  rw [hrun, mem_runOps_of_no_puts hok (by simp [removeTriplesAboutAllGraphs])]
  refine and_congr_right fun _ => ?_
  simp only [removeTriplesAboutAllGraphs, List.cons_append, List.nil_append, List.mem_cons, reduceCtorEq,
    List.not_mem_nil, false_or, or_false, Op.del.injEq, forall_eq_or_imp, forall_eq,
    aboutIri_matches_eq_false]
  refine and_congr_right fun _ => ?_
  rw [Bool.eq_false_iff, Ne, Pattern.matches_iff]
  simp only [admits_some, admits_none, true_and]
  exact ne_comm

/-- What a deletion leaves. -/
theorem mem_productDeleted (htype : event.eventType = "ProductDeleted") (hproduct : event.product = some p)
    (hiri : event.iriOrSource "product_iri" = env.iris.product p)
    (hok : (projectStore env s event).1 = .ok ()) : q ∈ projected env s event ↔
      q ∈ s ∧ q.graph ≠ .named ⟨env.iris.productGraph p⟩ ∧ q.subject ≠ .named ⟨env.iris.product p⟩ ∧
        ¬ FoundByProperty env p s q.subject ∧ ¬ FoundByPath env p s q.subject := by
  have hscript := runScript_ok_of_projectStore hok
  rw [projected_eq]
  rw [script_productDeleted htype, projectProductDeleted] at hscript ⊢
  simp only [hiri, hproduct, Option.some_or, Option.toList_some, List.flatMap_singleton] at hscript ⊢
  obtain ⟨hfirst, hrest⟩ := runScript_cons_of_ok hscript
  rw [hrest] at hscript ⊢
  obtain ⟨hsecond, hrest⟩ := runScript_cons_of_ok hscript
  rw [hrest, runScript_singleton]
  have hmem₁ := fun r : Quad => mem_removeProduct (q := r) rfl hfirst
  simp only [Step.run] at hmem₁ hsecond ⊢
  generalize (runOps env.checks s _).2 = s₁ at hmem₁ hsecond ⊢
  have hops₂ : ∀ op, op ∈ removeChildrenByProperty env p s₁ ↔
      ∃ iri, (env.checks.iri iri = none ∧ ∃ x, Carries s₁ p x ∧ x.text = iri) ∧ op = .del (aboutIri iri) := by
    intro op
    rw [mem_removeChildrenByProperty]
    constructor
    · rintro ⟨x, hx, hiri, hop⟩
      exact ⟨_, ⟨hiri, x, hx, rfl⟩, hop⟩
    · rintro ⟨_, ⟨hiri, x, hx, rfl⟩, hop⟩
      exact ⟨x, hx, hiri, hop⟩
  have hmem₂ := fun r : Quad => mem_runOps_removeAbout (C := env.checks) (q := r) (s := s₁) hops₂
  generalize (runOps env.checks s₁ (removeChildrenByProperty env p s₁)).2 = s₂ at hmem₂ ⊢
  have hops₃ : ∀ op, op ∈ removeChildrenByPath env p s₂ ↔
      ∃ iri, ((∃ q ∈ s₂, q.graph = .default ∧ q.subject = .named ⟨iri⟩) ∧
        containsText iri (productPath p) = true ∧ env.checks.iri iri = none) ∧ op = .del (aboutIri iri) := by
    intro op
    rw [mem_removeChildrenByPath]
    simp only [and_assoc]
  rw [mem_runOps_removeAbout hops₃, hmem₂, hmem₁]
  have hcarries : ∀ x, Carries s₁ p x ↔ Carries s p x ∧ x ≠ .named ⟨env.iris.product p⟩ := by
    intro x
    rw [Carries, hmem₁]
    simp [Carries]
  constructor
  · rintro ⟨⟨⟨hq, hsubject, hgraph⟩, hproperty⟩, hpath⟩
    refine ⟨hq, hgraph, hsubject, ?_, ?_⟩
    · rintro ⟨iri, hx, hvalid, x', hx', htext⟩
      refine hproperty iri ⟨hvalid, x', (hcarries x').mpr ⟨hx', ?_⟩, htext⟩ hx
      rintro rfl
      obtain rfl : env.iris.product p = iri := htext
      exact hsubject hx
    · rintro ⟨iri, hx, hvalid, hcontains, r, hr, hdefault, hsame⟩
      refine hpath iri ⟨⟨r, (hmem₂ r).mpr ⟨(hmem₁ r).mpr ⟨hr, ?_, ?_⟩, ?_⟩, hdefault, hsame.trans hx⟩,
        hcontains, hvalid⟩ hx
      · rwa [hsame]
      · simp [hdefault]
      · rwa [hsame]
  · rintro ⟨hq, hgraph, hsubject, hproperty, hpath⟩
    refine ⟨⟨⟨hq, hsubject, hgraph⟩, ?_⟩, ?_⟩
    · rintro iri ⟨hvalid, x', hx', htext⟩ hx
      exact hproperty ⟨iri, hx, hvalid, x', ((hcarries x').mp hx').1, htext⟩
    · rintro iri ⟨⟨r, hr, hdefault, hsame⟩, hcontains, hvalid⟩ hx
      exact hpath ⟨iri, hx, hvalid, hcontains, r, ((hmem₁ r).mp ((hmem₂ r).mp hr).1).1, hdefault,
        hsame.trans hx.symm⟩

/-- What lies under the product has its path in the IRI. -/
theorem containsText_of_under {iri : String} (h : Under env p iri) :
    containsText iri (productPath p) = true := by
  refine decide_eq_true (List.IsInfix.trans ?_ h.isInfix)
  refine List.IsSuffix.isInfix ⟨("https://" ++ env.iris.domain).toList, ?_⟩
  simp [productPath, IriBuilder.product]

theorem IsSlug.notMem_slash (hp : IsSlug p) : '/' ∉ p.toList :=
  fun hslash => absurd (hp.2 '/' hslash) (by decide)

/-- A product is not elsewhere. -/
theorem not_elsewhere_product (hp : IsSlug p) : ¬ Elsewhere env p (.named ⟨env.iris.product p⟩) := by
  rintro ⟨iri, hiri, -, h⟩
  obtain rfl : env.iris.product p = iri := by simpa using hiri
  rcases h with ⟨p', -, hne, heq | hunder⟩ | ⟨-, hproducts⟩
  · have hlist := congrArg String.toList heq
    simp only [IriBuilder.product, String.toList_append, List.append_assoc,
      List.append_cancel_left_eq] at hlist
    exact hne (String.toList_inj.mp hlist).symm
  · simp only [Under, IriBuilder.product, String.toList_append, List.append_assoc,
      List.prefix_append_right_inj] at hunder
    exact absurd (hunder.subset (by simp)) hp.notMem_slash
  · exact hproducts ⟨p.toList, by simp [IriBuilder.clusterRoot, IriBuilder.product]⟩

/-- What lies under a product is not elsewhere. -/
theorem not_elsewhere_of_under {iri : String} (hp : IsSlug p) (hunder : Under env p iri) :
    ¬ Elsewhere env p (.named ⟨iri⟩) := by
  rintro ⟨iri', hiri, -, h⟩
  obtain rfl : iri = iri' := by simpa using hiri
  obtain ⟨rest, hrest⟩ := hunder
  rcases h with ⟨p', hp', hne, rfl | ⟨rest', hrest'⟩⟩ | ⟨-, hproducts⟩
  · simp only [IriBuilder.product, String.toList_append, List.append_assoc,
      List.append_cancel_left_eq] at hrest
    exact hp'.notMem_slash (hrest ▸ by simp)
  · -- both names end at the first slash
    simp only [IriBuilder.product, ← hrest, String.toList_append, List.append_assoc,
      List.append_cancel_left_eq] at hrest'
    have hname : ∀ {name : String}, IsSlug name → ∀ tail : List Char,
        (name.toList ++ ("/".toList ++ tail)).takeWhile (· ≠ '/') = name.toList := by
      intro name hslug tail
      rw [List.takeWhile_append_of_pos fun c hc => by simpa using fun h : c = '/' => hslug.notMem_slash (h ▸ hc)]
      simp
    have heq := congrArg (List.takeWhile (· ≠ '/')) hrest'
    rw [hname hp', hname hp] at heq
    exact hne (String.toList_inj.mp heq)
  · exact hproducts ⟨p.toList ++ "/".toList ++ rest, by
      simp [← hrest, IriBuilder.clusterRoot, IriBuilder.product]⟩

/-- The IRI of a deleted product was accepted. -/
theorem product_accepted (htype : event.eventType = "ProductDeleted")
    (hiri : event.iriOrSource "product_iri" = env.iris.product p)
    (hok : (projectStore env s event).1 = .ok ()) : env.checks.iri (env.iris.product p) = none := by
  have hscript := runScript_ok_of_projectStore hok
  rw [script_productDeleted htype, projectProductDeleted] at hscript
  obtain ⟨hfirst, -⟩ := runScript_cons_of_ok hscript
  rw [hiri] at hfirst
  have hcheck := runOps_ok_iff.mp hfirst (.named "invalid subject IRI: " (env.iris.product p))
    (by simp [removeTriplesAboutAllGraphs])
  simpa [Op.error] using hcheck

end Deletion

/-! ## Deletions that are exact -/

section Exact

variable {env : ProjectorEnv} {event : EventEnvelope} {s : Store} {p : String}

/-- **A deletion is complete and takes nothing from elsewhere exactly when the graph keeps the product apart.** -/
theorem product_deleted_iff (env : ProjectorEnv) (s : Store) (event : EventEnvelope) (p : String)
    (hp : IsSlug p) (htype : event.eventType = "ProductDeleted") (hproduct : event.product = some p)
    (hiri : event.iriOrSource "product_iri" = env.iris.product p)
    (hok : (projectStore env s event).1 = .ok ()) :
    DeletesExactly env p s (projected env s event) ↔ ProductApart env p s := by
  have hmem := fun q : Quad => mem_productDeleted (q := q) htype hproduct hiri hok
  constructor
  · intro h
    have hiris : ∀ q ∈ s, q.graph = .default → BelongsTo env p s q.subject →
        ∃ iri, q.subject = .named ⟨iri⟩ ∧ env.checks.iri iri = none := by
      intro q hq hgraph hof
      by_contra hnone
      refine h.complete q ((hmem q).mpr ⟨hq, by simp [hgraph], ?_, ?_, ?_⟩) (Or.inl hgraph) hof
      · exact fun hself => hnone ⟨_, hself, product_accepted htype hiri hok⟩
      · rintro ⟨iri, hx, hvalid, -⟩
        exact hnone ⟨iri, hx, hvalid⟩
      · rintro ⟨iri, hx, hvalid, -⟩
        exact hnone ⟨iri, hx, hvalid⟩
    refine ⟨hiris, fun q hq hgraph helse => ?_, fun x helse hcarries => ?_, fun q hq hgraph helse iri hsubject => ?_⟩
    · exact ((hmem q).mp ((h.frame q helse).mpr hq)).2.1 hgraph
    · have hq := (hmem _).mp ((h.frame _ helse).mpr hcarries)
      obtain ⟨iri, rfl, hvalid, -⟩ := helse
      exact hq.2.2.2.1 ⟨iri, rfl, hvalid, _, hcarries, rfl⟩
    · by_contra hcontains
      rw [Bool.not_eq_false] at hcontains
      have hq' := (hmem q).mp ((h.frame q helse).mpr hq)
      obtain ⟨iri', hsubject', hvalid, -⟩ := helse
      obtain rfl : iri = iri' := by simpa using hsubject.symm.trans hsubject'
      exact hq'.2.2.2.2 ⟨iri, hsubject, hvalid, hcontains, q, hq, hgraph, rfl⟩
  · intro h
    constructor
    case complete =>
      intro q hq hgraph hof
      obtain ⟨hmem', hgraph', hsubject, hproperty, hpath⟩ := (hmem q).mp hq
      have hdefault := hgraph.resolve_right hgraph'
      obtain ⟨iri, hx, hvalid⟩ := h.iris q hmem' hdefault hof
      rcases hof with hself | hcarries | ⟨iri', hx', hunder⟩
      · exact hsubject hself
      · exact hproperty ⟨iri, hx, hvalid, _, hcarries, by rw [hx]; rfl⟩
      · obtain rfl : iri = iri' := by simpa using hx.symm.trans hx'
        exact hpath ⟨iri, hx, hvalid, containsText_of_under hunder, q, hmem', hdefault, rfl⟩
    case frame =>
      intro q helse
      rw [hmem]
      refine and_iff_left_of_imp fun hq => ⟨fun hgraph => h.graph q hq hgraph helse, ?_, ?_, ?_⟩
      · intro hself
        rw [hself] at helse
        exact not_elsewhere_product hp helse
      · rintro ⟨iri, hx, -, x', hcarries, htext⟩
        -- the carrier is the resource itself
        obtain ⟨iri', hx', -⟩ := h.iris _ hcarries rfl (Or.inr (Or.inl hcarries))
        obtain rfl : x' = .named ⟨iri'⟩ := hx'
        obtain rfl : iri' = iri := htext
        exact h.property _ (hx ▸ helse) hcarries
      · rintro ⟨iri, hx, -, hcontains, r, hr, hdefault, hsame⟩
        have hnone := h.path r hr hdefault (hsame ▸ helse) iri (hsame.trans hx)
        simp [hcontains] at hnone

end Exact

/-! ## Examples -/

/-- A volume is declared. -/
def sampleProductVolume (product : String) : EventEnvelope :=
  sampleEvent "ResourceDeclared" (some product)
    [("resource_iri", .string ("https://picloud.local/products/" ++ product ++ "/volumes/data")),
      ("resource_type", .string "Volume"), ("product", .string product)]

/-- A product is deleted. -/
def sampleProductDeletion (product : String) : EventEnvelope :=
  sampleEvent "ProductDeleted" (some product)
    [("product_iri", .string ("https://picloud.local/products/" ++ product))]

/-- The graph of one volume. -/
def volumeStore (product : String) : Store :=
  (Projector.new.projectEach plainEnv [sampleProductVolume product]).store

theorem volumeStore_shop : ∀ q ∈ volumeStore "shop",
    q.subject = .named ⟨"https://picloud.local/products/shop/volumes/data"⟩ := by
  decide +kernel

theorem productApart_shop : ProductApart plainEnv "shop" (volumeStore "shop") := by
  have helse : ∀ q ∈ volumeStore "shop", ¬ Elsewhere plainEnv "shop" q.subject := by
    intro q hq
    rw [volumeStore_shop q hq]
    exact not_elsewhere_of_under (by decide) (by unfold Under; decide)
  exact ⟨fun q hq _ _ => ⟨_, volumeStore_shop q hq, rfl⟩, fun q hq _ h => helse q hq h,
    fun x h hcarries => helse _ hcarries h, fun q hq _ h => (helse q hq h).elim⟩

/-- The product with the volume is deleted. -/
theorem product_deleted_shop :
    (projectStore plainEnv (volumeStore "shop") (sampleProductDeletion "shop")).1 = .ok () ∧
      DeletesExactly plainEnv "shop" (volumeStore "shop")
        (projected plainEnv (volumeStore "shop") (sampleProductDeletion "shop")) :=
  ⟨by decide +kernel, (product_deleted_iff plainEnv (volumeStore "shop") (sampleProductDeletion "shop") "shop"
    (by decide) rfl rfl rfl (by decide +kernel)).mpr productApart_shop⟩

/-- The product `volumes` is deleted, and a volume of the product `products` goes with it. -/
theorem not_deletesExactly_volumes :
    (projectStore plainEnv (volumeStore "products") (sampleProductDeletion "volumes")).1 = .ok () ∧
      ¬ DeletesExactly plainEnv "volumes" (volumeStore "products")
        (projected plainEnv (volumeStore "products") (sampleProductDeletion "volumes")) := by
  refine ⟨by decide +kernel, fun h => ?_⟩
  let q := quad "https://picloud.local/products/products/volumes/data" (pc "resourceType") (simple "Volume")
    .default
  have helse : Elsewhere plainEnv "volumes" q.subject :=
    ⟨_, rfl, rfl, Or.inl ⟨"products", by decide, by decide, Or.inr (by unfold Under; decide)⟩⟩
  have hkept := (h.frame q helse).mpr (by decide +kernel)
  revert hkept
  decide +kernel

end Picloud
