import Mathlib.Logic.Function.Basic
import Picloud.Rdf.Facts

/-!
# Image tags in the graph

Reference: `project_image_pushed`, `project_image_tag_updated` and `project_image_deleted` of
`picloud-rdf/src/implementation.rs`.

`ImageTags` is what the three kinds of events say about the tags: the image that each tag points to, its
names and its links. A push inserts a pointer and leaves the old one in place, so the graph follows the
events as long as no push moves a tag. A deletion works on IRIs, and takes more or less than the tags of the
image when IRIs of repositories, tags and images coincide.
-/

namespace Picloud

open Lib

/-! ## What the events say -/

/-- The tags by their IRIs: the image that each tag points to, its names, and the repositories that link to
it. -/
structure ImageTags where
  points : String → Option String
  names : Set (String × String)
  links : Set (String × String)

namespace ImageTags

/-- No tags. -/
def empty : ImageTags := ⟨fun _ => none, ∅, ∅⟩

/-- A tag with its name is put on an image. -/
def tagged (V : ImageTags) (tagIri name image : String) : ImageTags where
  points := Function.update V.points tagIri (some image)
  names := insert (tagIri, name) V.names
  links := V.links

/-- A repository links to a tag. -/
def linked (V : ImageTags) (repo tagIri : String) : ImageTags :=
  { V with links := insert (repo, tagIri) V.links }

/-- An image is deleted, and the tags that point to it. -/
def deleted (V : ImageTags) (image : String) : ImageTags where
  points tagIri := if V.points tagIri = some image then none else V.points tagIri
  names := { p | p ∈ V.names ∧ V.points p.1 ≠ some image }
  links := { p | p ∈ V.links ∧ V.points p.2 ≠ some image }

@[simp] theorem tagged_points_self (V : ImageTags) (tagIri name image : String) :
    (V.tagged tagIri name image).points tagIri = some image := Function.update_self ..

theorem tagged_points_of_ne (V : ImageTags) {tagIri other : String} (name image : String)
    (h : other ≠ tagIri) : (V.tagged tagIri name image).points other = V.points other :=
  Function.update_of_ne h ..

end ImageTags

/-- The repository of an event. -/
def repoOf (env : ProjectorEnv) (event : EventEnvelope) : String :=
  repositoryIri env (event.strD "repository" "")

/-- The image that a field of an event names. -/
def imageOf (env : ProjectorEnv) (event : EventEnvelope) (field : String) : String :=
  imageIri env (event.strD "repository" "") (event.strD field "")

/-- A tag in the repository of an event. -/
def tagIriOf (env : ProjectorEnv) (event : EventEnvelope) (tag : String) : String :=
  imageTagIri env (event.strD "repository" "") tag

/-- The tag that a push gives to its image. -/
def pushedTag (event : EventEnvelope) : Option String := (event.str "tag").filter fun tag => tag ≠ ""

/-- What the tags are after an event. -/
def ImageTags.next (env : ProjectorEnv) (V : ImageTags) (event : EventEnvelope) : ImageTags :=
  if event.eventType = "ImagePushed" then
    match pushedTag event with
    | some tag => (V.tagged (tagIriOf env event tag) tag (imageOf env event "digest")).linked
        (repoOf env event) (tagIriOf env event tag)
    | none => V
  else if event.eventType = "ImageTagUpdated" then
    V.tagged (tagIriOf env event (event.strD "tag" "")) (event.strD "tag" "")
      (imageOf env event "new_digest")
  else V.deleted (imageOf env event "digest")

/-- The event does not reach a defect: a push does not move a tag; the IRI of a deleted image is no tag and no
repository with tags, and its tags are no repositories with tags and are linked from its repository only. -/
structure ImageTags.Safe (env : ProjectorEnv) (V : ImageTags) (event : EventEnvelope) : Prop where
  push : event.eventType = "ImagePushed" → ∀ tag, pushedTag event = some tag →
    V.points (tagIriOf env event tag) = none ∨
      V.points (tagIriOf env event tag) = some (imageOf env event "digest")
  image : event.eventType = "ImageDeleted" → V.points (imageOf env event "digest") = none ∧
    ∀ tagIri, (imageOf env event "digest", tagIri) ∉ V.links
  tags : event.eventType = "ImageDeleted" → ∀ tagIri,
    V.points tagIri = some (imageOf env event "digest") →
      (∀ other, (tagIri, other) ∉ V.links) ∧ ∀ repo, (repo, tagIri) ∈ V.links → repo = repoOf env event

/-- The default graph holds the tags: each points to its one image, and has its names and links; nothing is
left of the others. -/
structure TagView (V : ImageTags) (s : Set Quad) : Prop where
  points : ∀ x o, ⟨x, ⟨pc "pointsToDigest"⟩, o, .default⟩ ∈ s ↔
    ∃ tagIri image, V.points tagIri = some image ∧ x = .named ⟨tagIri⟩ ∧ o = node image
  types : ∀ x, ⟨x, ⟨rdfType⟩, picloudTerm "ImageTag", .default⟩ ∈ s ↔
    ∃ tagIri, V.points tagIri ≠ none ∧ x = .named ⟨tagIri⟩
  names : ∀ tagIri o, quad tagIri (pc "tagName") o .default ∈ s ↔
    ∃ name, (tagIri, name) ∈ V.names ∧ o = simple name
  links : ∀ repo o, quad repo (pc "hasTag") o .default ∈ s ↔
    ∃ tagIri, (repo, tagIri) ∈ V.links ∧ o = node tagIri

/-- Only tags that point to an image have names. -/
def ImageTags.Named (V : ImageTags) : Prop := ∀ p ∈ V.names, V.points p.1 ≠ none

/-! ## What the handlers do -/

/-- A quad that is written about tags. -/
def AboutTags (q : Quad) : Prop :=
  q.graph = .default ∧ (q.predicate = ⟨pc "pointsToDigest"⟩ ∨ q.predicate = ⟨pc "tagName"⟩ ∨
    q.predicate = ⟨pc "hasTag"⟩ ∨ q.predicate = ⟨rdfType⟩ ∧ q.object = picloudTerm "ImageTag")

/-- What is written about a tag. -/
def tagFacts (tagIri name image : String) : List Quad :=
  [quad tagIri rdfType (picloudTerm "ImageTag") .default, quad tagIri (pc "tagName") (simple name) .default,
    quad tagIri (pc "pointsToDigest") (node image) .default]

section Handlers

variable {env : ProjectorEnv} {event : EventEnvelope} {s : Store} {q : Quad}

theorem script_imagePushed (htype : event.eventType = "ImagePushed") :
    script env event = projectImagePushed env event := by
  rw [script, htype]
  rfl

theorem script_imageTagUpdated (htype : event.eventType = "ImageTagUpdated") :
    script env event = projectImageTagUpdated env event := by
  rw [script, htype]
  rfl

/-- The part of a push that is about its tag. -/
def pushTag (env : ProjectorEnv) (event : EventEnvelope) : List Op :=
  (event.str "tag").toList.flatMap fun tag =>
    if tag = "" then []
    else
      insertTriple (tagIriOf env event tag) rdfType (picloudTerm "ImageTag") ++
        insertTriple (tagIriOf env event tag) (pc "tagName") (simple tag) ++
        insertNode (tagIriOf env event tag) (pc "pointsToDigest") "invalid image IRI: "
          (imageOf env event "digest") ++
        insertNode (repoOf env event) (pc "hasTag") "invalid tag IRI: " (tagIriOf env event tag)

/-- The part of a push that is about its image. -/
def pushImage (env : ProjectorEnv) (event : EventEnvelope) : List Op :=
  let image := imageOf env event "digest"
  insertTriple (repoOf env event) rdfType (picloudTerm "Repository") ++
    insertTriple (repoOf env event) (pc "repositoryName") (simple (event.strD "repository" "")) ++
    insertTriple image rdfType (picloudTerm "Image") ++
    insertTriple image (pc "digest") (simple (event.strD "digest" "")) ++
    insertTriple image (pc "sizeBytes")
      (typed (toString ((event.payload.index "size_bytes").asU64.getD 0)) xsdUnsignedLong) ++
    insertTriple image (pc "mediaType") (simple (event.strD "media_type" "")) ++
    (if event.strD "pushed_by" "" = "" then []
      else insertTriple image (pc "pushedBy") (simple (event.strD "pushed_by" ""))) ++
    insertTriple image (pc "pushedAt") (typed (env.rfc3339 event.timestamp) xsdDateTime) ++
    insertNode (repoOf env event) (pc "hasImage") "invalid image IRI: " image

theorem projectImagePushed_eq :
    projectImagePushed env event = [.ops (pushImage env event ++ pushTag env event)] := rfl

theorem put_mem_pushTag : Op.put q ∈ pushTag env event ↔ ∃ tag, pushedTag event = some tag ∧
    (q ∈ tagFacts (tagIriOf env event tag) tag (imageOf env event "digest") ∨
      q = quad (repoOf env event) (pc "hasTag") (node (tagIriOf env event tag)) .default) := by
  unfold pushTag pushedTag
  cases event.str "tag" with
  | none => simp
  | some tag =>
    by_cases hempty : tag = ""
    · simp [hempty]
    · simp [hempty, tagFacts, or_assoc]

theorem put_mem_pushImage (hq : AboutTags q) : Op.put q ∉ pushImage env event := by
  have hother : ∀ iri name o, name ∉ ["pointsToDigest", "tagName", "hasTag"] →
      q ≠ quad iri (pc name) o .default := by
    rintro iri name o hname rfl
    simp [AboutTags, quad] at hq hname
    tauto
  have htypes : ∀ iri name, name ≠ "ImageTag" → q ≠ quad iri rdfType (picloudTerm name) .default := by
    rintro iri name hname rfl
    simp [AboutTags, quad, picloudTerm] at hq
    exact hname hq
  have hby : Op.put q ∉ (if event.strD "pushed_by" "" = "" then []
      else insertTriple (imageOf env event "digest") (pc "pushedBy") (simple (event.strD "pushed_by" ""))) := by
    split
    · exact List.not_mem_nil
    · rw [put_mem_insertTriple]
      exact hother _ "pushedBy" _ (by decide)
  simp only [pushImage, List.mem_append, put_mem_insertTriple, put_mem_insertNode, not_or]
  exact ⟨⟨⟨⟨⟨⟨⟨⟨htypes _ "Repository" (by decide), hother _ "repositoryName" _ (by decide)⟩,
    htypes _ "Image" (by decide)⟩, hother _ "digest" _ (by decide)⟩, hother _ "sizeBytes" _ (by decide)⟩,
    hother _ "mediaType" _ (by decide)⟩, hby⟩, hother _ "pushedAt" _ (by decide)⟩,
    hother _ "hasImage" _ (by decide)⟩

theorem del_notMem_push {p : Pattern} : Op.del p ∉ pushImage env event ++ pushTag env event := by
  unfold pushImage pushTag
  split
  all_goals
    cases event.str "tag" with
    | none => simp
    | some tag =>
      by_cases hempty : tag = ""
      · simp [hempty]
      · simp [hempty]

/-- A push inserts the facts of its tag, and the link to it. -/
theorem mem_imagePushed (htype : event.eventType = "ImagePushed")
    (hok : (projectStore env s event).1 = .ok ()) (hq : AboutTags q) :
    q ∈ projected env s event ↔ q ∈ s ∨ ∃ tag, pushedTag event = some tag ∧
      (q ∈ tagFacts (tagIriOf env event tag) tag (imageOf env event "digest") ∨
        q = quad (repoOf env event) (pc "hasTag") (node (tagIriOf env event tag)) .default) := by
  obtain ⟨hiff, heq⟩ := projectStore_ops s ((script_imagePushed htype).trans projectImagePushed_eq)
  rw [heq, mem_runOps_of_puts (hiff.mp hok) fun _ => del_notMem_push, List.mem_append,
    or_iff_right (put_mem_pushImage hq), put_mem_pushTag]

/-- The tag that an update moves. -/
def updatedTag (env : ProjectorEnv) (event : EventEnvelope) : String :=
  tagIriOf env event (event.strD "tag" "")

theorem projectImageTagUpdated_eq : projectImageTagUpdated env event =
    [.ops (.named "invalid tag IRI: " (updatedTag env event) ::
      clearInDefault (updatedTag env event) (pc "pointsToDigest") ++
      insertNode (updatedTag env event) (pc "pointsToDigest") "invalid image IRI: "
        (imageOf env event "new_digest") ++
      insertTriple (updatedTag env event) rdfType (picloudTerm "ImageTag") ++
      insertTriple (updatedTag env event) (pc "tagName") (simple (event.strD "tag" "")))] := rfl

/-- An update moves the pointer of its tag. -/
theorem mem_imageTagUpdated (htype : event.eventType = "ImageTagUpdated")
    (hok : (projectStore env s event).1 = .ok ()) (hq : q.graph = .default) :
    q ∈ projected env s event ↔
      q ∈ s ∧ ¬ (q.subject = .named ⟨updatedTag env event⟩ ∧ q.predicate = ⟨pc "pointsToDigest"⟩) ∨
      q ∈ tagFacts (updatedTag env event) (event.strD "tag" "") (imageOf env event "new_digest") := by
  obtain ⟨hiff, heq⟩ := projectStore_ops s ((script_imageTagUpdated htype).trans projectImageTagUpdated_eq)
  have hchecks := runOps_ok_iff.mp (hiff.mp hok)
  have htag : env.checks.iri (updatedTag env event) = none := by
    simpa [Op.error] using hchecks (.named "invalid tag IRI: " (updatedTag env event)) (by simp)
  have himage : env.checks.iri (imageOf env event "new_digest") = none := by
    simpa [Op.error] using hchecks (.named "invalid image IRI: " (imageOf env event "new_digest"))
      (by simp [insertNode])
  rw [heq]
  simp only [List.cons_append, List.append_assoc, insertNode]
  rw [runOps_named_ok _ htag, runOps_clearInDefault (env.iri_pc "pointsToDigest" (by decide)),
    runOps_named_ok _ himage, runOps_insertTriple htag (env.iri_pc "pointsToDigest" (by decide)),
    runOps_insertTriple htag env.iri_rdfType, ← List.append_nil (insertTriple _ _ _),
    runOps_insertTriple htag (env.iri_pc "tagName" (by decide)), runOps, Store.mem_insert,
    Store.mem_insert, Store.mem_insert, Store.mem_removeIf, Bool.eq_false_iff, Ne, valuesOf_matches_iff]
  simp only [hq, and_true, tagFacts, List.mem_cons, List.not_mem_nil, or_false, or_assoc]
  exact or_congr_right or_rotate

/-- The tags that point to a deleted image, when what is about the image is gone. -/
def orphans (env : ProjectorEnv) (event : EventEnvelope) (s : Store) : Set Subject :=
  { x | x ≠ .named ⟨imageOf env event "digest"⟩ ∧
    ⟨x, ⟨pc "pointsToDigest"⟩, node (imageOf env event "digest"), .default⟩ ∈ s }

/-- The first part of a deletion. -/
def forgetImage (env : ProjectorEnv) (event : EventEnvelope) : List Op :=
  [.named "invalid repo IRI: " (repoOf env event), .named "invalid predicate: " (pc "hasImage"),
    .named "invalid image IRI: " (imageOf env event "digest"),
    .del (quad (repoOf env event) (pc "hasImage") (node (imageOf env event "digest")) .default).pattern] ++
    removeTriplesAbout (imageOf env event "digest")

theorem projectImageDeleted_eq : projectImageDeleted env event =
    [.ops (forgetImage env event),
      .read (removeTagsOf env (repoOf env event) (imageOf env event "digest"))] := rfl

theorem mem_afterImage (hok : (runOps env.checks s (forgetImage env event)).1 = .ok ()) (hq : AboutTags q) :
    q ∈ (runOps env.checks s (forgetImage env event)).2 ↔
      q ∈ s ∧ q.subject ≠ .named ⟨imageOf env event "digest"⟩ := by
  have hlink : (quad (repoOf env event) (pc "hasImage") (node (imageOf env event "digest"))
      .default).pattern.matches q = false := by
    rw [Bool.eq_false_iff, Ne, Quad.pattern_matches]
    rintro rfl
    simp [AboutTags, quad] at hq
  have habout : (aboutIriInDefault (imageOf env event "digest")).matches q = false ↔
      q.subject ≠ .named ⟨imageOf env event "digest"⟩ := by
    rw [Bool.eq_false_iff, Ne, Pattern.matches_iff, aboutIriInDefault]
    simp only [admits_some, admits_none, hq.1, and_true]
    exact not_congr eq_comm
  rw [mem_runOps_of_no_puts hok (by simp [forgetImage, removeTriplesAbout])]
  refine and_congr_right fun _ => ?_
  simp only [forgetImage, removeTriplesAbout, List.cons_append, List.nil_append, List.mem_cons, reduceCtorEq,
    List.not_mem_nil, false_or, or_false, Op.del.injEq, forall_eq_or_imp, forall_eq, hlink, true_and, habout]

theorem orphan_iff (hok : (runOps env.checks s (forgetImage env event)).1 = .ok ()) (x : Subject) :
    ⟨x, ⟨pc "pointsToDigest"⟩, node (imageOf env event "digest"), .default⟩ ∈
        (runOps env.checks s (forgetImage env event)).2 ↔ x ∈ orphans env event s := by
  rw [mem_afterImage hok ⟨rfl, Or.inl rfl⟩, and_comm]
  rfl

theorem put_notMem_removeTagsOf {repo image : String} {t : Store} :
    Op.put q ∉ removeTagsOf env repo image t := by
  simp [removeTagsOf, removeTriplesAbout]

theorem del_mem_removeTagsOf {repo image : String} {t : Store} {orphan : Set Subject} {p : Pattern}
    (h : ∀ x, ⟨x, ⟨pc "pointsToDigest"⟩, node image, .default⟩ ∈ t ↔ x ∈ orphan) :
    Op.del p ∈ removeTagsOf env repo image t ↔ ∃ x ∈ orphan, p = aboutIriInDefault x.text ∨
      p = (quad repo (pc "hasTag") (node x.text) .default).pattern := by
  simp only [removeTagsOf, List.mem_flatMap, removeTriplesAbout, List.mem_append, List.mem_cons, reduceCtorEq,
    List.not_mem_nil, false_or, or_false, Op.del.injEq]
  constructor
  · rintro ⟨row, hrow, hp⟩
    obtain ⟨hmem, hmatch⟩ := Store.mem_quadsForPattern.mp ((env.scan_perm _).mem_iff.mp hrow)
    obtain ⟨-, hpred, hobj, hgraph⟩ := Pattern.matches_iff.mp hmatch
    rw [admits_some] at hpred hobj hgraph
    refine ⟨row.subject, (h _).mp ?_, hp⟩
    rw [hpred, hobj, hgraph]
    exact hmem
  · rintro ⟨x, hx, hp⟩
    exact ⟨_, (env.scan_perm _).mem_iff.mpr (Store.mem_quadsForPattern.mpr
      ⟨(h x).mpr hx, by simp [Pattern.matches_iff]⟩), hp⟩

/-- A deletion takes what is about the image and what is about the tags that point to it, and the links to
these from the repository. -/
theorem mem_imageDeleted (htype : event.eventType = "ImageDeleted")
    (hok : (projectStore env s event).1 = .ok ()) (hq : AboutTags q)
    (hnamed : ∀ x ∈ orphans env event s, ∃ tagIri, x = .named ⟨tagIri⟩) :
    q ∈ projected env s event ↔
      q ∈ s ∧ q.subject ≠ .named ⟨imageOf env event "digest"⟩ ∧ q.subject ∉ orphans env event s ∧
      ¬ ∃ tagIri, .named ⟨tagIri⟩ ∈ orphans env event s ∧
        q = quad (repoOf env event) (pc "hasTag") (node tagIri) .default := by
  obtain ⟨hfirst, hsecond, heq⟩ := projectStore_ops_read s
    ((script_imageDeleted htype).trans projectImageDeleted_eq) hok
  rw [heq, mem_runOps_of_no_puts hsecond fun _ => put_notMem_removeTagsOf, mem_afterImage hfirst hq]
  have hgraph : q.graph = .default := hq.1
  have habout : ∀ tagIri, (aboutIriInDefault tagIri).matches q = false ↔ q.subject ≠ .named ⟨tagIri⟩ := by
    intro tagIri
    rw [Bool.eq_false_iff, Ne, Pattern.matches_iff, aboutIriInDefault]
    simp only [admits_some, admits_none, hgraph, and_true]
    exact not_congr eq_comm
  have hlink : ∀ tagIri, (quad (repoOf env event) (pc "hasTag") (node tagIri) .default).pattern.matches q =
      false ↔ q ≠ quad (repoOf env event) (pc "hasTag") (node tagIri) .default := by
    intro tagIri
    rw [Bool.eq_false_iff, Ne, Quad.pattern_matches]
    exact not_congr eq_comm
  rw [and_assoc]
  refine and_congr_right fun _ => and_congr_right fun _ => ?_
  simp only [del_mem_removeTagsOf (orphan_iff hfirst)]
  constructor
  · intro hall
    refine ⟨fun horphan => ?_, ?_⟩
    · obtain ⟨tagIri, hx⟩ := hnamed _ horphan
      exact (habout tagIri).mp (hall _ ⟨q.subject, horphan, Or.inl (by rw [hx]; rfl)⟩) hx
    · rintro ⟨tagIri, horphan, hq⟩
      exact (hlink tagIri).mp (hall _ ⟨_, horphan, Or.inr rfl⟩) hq
  · rintro ⟨hnot, hkept⟩ p ⟨x, horphan, hp⟩
    obtain ⟨tagIri, rfl⟩ := hnamed x horphan
    rcases hp with rfl | rfl
    · exact (habout tagIri).mpr fun hx => hnot (hx ▸ horphan)
    · exact (hlink tagIri).mpr fun hx => hkept ⟨tagIri, horphan, hx⟩

end Handlers

/-! ## The abstract state is followed -/

section Follow

variable {env : ProjectorEnv} {V : ImageTags} {s s' : Set Quad} {event : EventEnvelope}
  {tagIri name image repo : String}

/-- Moving a tag. -/
theorem TagView.tagged (h : TagView V s)
    (hs : ∀ q, AboutTags q → (q ∈ s' ↔
      q ∈ s ∧ ¬ (q.subject = .named ⟨tagIri⟩ ∧ q.predicate = ⟨pc "pointsToDigest"⟩) ∨
        q ∈ tagFacts tagIri name image)) : TagView (V.tagged tagIri name image) s' := by
  refine ⟨fun x o => ?_, fun x => ?_, fun iri o => ?_, fun iri o => ?_⟩
  · rw [hs _ ⟨rfl, Or.inl rfl⟩, h.points]
    simp only [tagFacts, quad, List.mem_cons, Quad.mk.injEq, NamedNode.mk.injEq, pc_ne_rdfType, pc_inj,
      String.reduceEq, List.not_mem_nil, or_false, false_and, and_false, false_or, and_true, true_and]
    constructor
    · rintro (⟨⟨G, I, hG, rfl, rfl⟩, hne⟩ | ⟨rfl, rfl⟩)
      · have hiri : G ≠ tagIri := fun heq => hne (heq ▸ rfl)
        exact ⟨G, I, (V.tagged_points_of_ne name image hiri).trans hG, rfl, rfl⟩
      · exact ⟨tagIri, image, V.tagged_points_self .., rfl, rfl⟩
    · rintro ⟨G, I, hG, rfl, rfl⟩
      by_cases hiri : G = tagIri
      · subst hiri
        rw [V.tagged_points_self, Option.some.injEq] at hG
        exact Or.inr ⟨rfl, by rw [hG]⟩
      · refine Or.inl ⟨⟨G, I, (V.tagged_points_of_ne name image hiri).symm.trans hG, rfl, rfl⟩, ?_⟩
        simpa using hiri
  · rw [hs _ ⟨rfl, Or.inr (Or.inr (Or.inr ⟨rfl, rfl⟩))⟩, h.types]
    simp only [tagFacts, quad, List.mem_cons, Quad.mk.injEq, NamedNode.mk.injEq, rdfType_ne_pc,
      List.not_mem_nil, or_false, false_and, and_false, and_true, not_false_eq_true]
    constructor
    · rintro (⟨G, hG, rfl⟩ | rfl)
      · refine ⟨G, ?_, rfl⟩
        by_cases hiri : G = tagIri
        · subst hiri
          simp
        · exact (V.tagged_points_of_ne name image hiri).trans_ne hG
      · exact ⟨tagIri, by simp, rfl⟩
    · rintro ⟨G, hG, rfl⟩
      by_cases hiri : G = tagIri
      · exact Or.inr (by rw [hiri])
      · exact Or.inl ⟨G, (V.tagged_points_of_ne name image hiri).symm.trans_ne hG, rfl⟩
  · rw [hs _ ⟨rfl, Or.inr (Or.inl rfl)⟩, h.names]
    simp only [tagFacts, quad, List.mem_cons, Quad.mk.injEq, NamedNode.mk.injEq, pc_ne_rdfType, pc_inj,
      String.reduceEq, List.not_mem_nil, or_false, false_and, and_false, false_or, and_true, true_and,
      not_false_eq_true, Subject.named.injEq, ImageTags.tagged, Set.mem_insert_iff, Prod.mk.injEq]
    constructor
    · rintro (⟨n, hn, rfl⟩ | ⟨rfl, rfl⟩)
      · exact ⟨n, Or.inr hn, rfl⟩
      · exact ⟨name, Or.inl ⟨rfl, rfl⟩, rfl⟩
    · rintro ⟨n, ⟨rfl, rfl⟩ | hn, rfl⟩
      · exact Or.inr ⟨rfl, rfl⟩
      · exact Or.inl ⟨n, hn, rfl⟩
  · rw [hs _ ⟨rfl, Or.inr (Or.inr (Or.inl rfl))⟩, h.links]
    simp only [tagFacts, quad, List.mem_cons, Quad.mk.injEq, NamedNode.mk.injEq, pc_ne_rdfType, pc_inj,
      String.reduceEq, List.not_mem_nil, or_false, false_and, and_false, and_true, not_false_eq_true,
      ImageTags.tagged]

/-- Linking a tag. -/
theorem TagView.linked (h : TagView V s)
    (hs : ∀ q, AboutTags q → (q ∈ s' ↔ q ∈ s ∨ q = quad repo (pc "hasTag") (node tagIri) .default)) :
    TagView (V.linked repo tagIri) s' := by
  refine ⟨fun x o => ?_, fun x => ?_, fun iri o => ?_, fun iri o => ?_⟩
  · rw [hs _ ⟨rfl, Or.inl rfl⟩, h.points]
    simp [quad, ImageTags.linked]
  · rw [hs _ ⟨rfl, Or.inr (Or.inr (Or.inr ⟨rfl, rfl⟩))⟩, h.types]
    simp [quad, ImageTags.linked]
  · rw [hs _ ⟨rfl, Or.inr (Or.inl rfl)⟩, h.names]
    simp [quad, ImageTags.linked]
  · rw [hs _ ⟨rfl, Or.inr (Or.inr (Or.inl rfl))⟩, h.links]
    simp only [quad, Quad.mk.injEq, Subject.named.injEq, NamedNode.mk.injEq, and_true, true_and,
      ImageTags.linked, Set.mem_insert_iff, Prod.mk.injEq]
    constructor
    · rintro (⟨G, hG, rfl⟩ | ⟨rfl, rfl⟩)
      · exact ⟨G, Or.inr hG, rfl⟩
      · exact ⟨tagIri, Or.inl ⟨rfl, rfl⟩, rfl⟩
    · rintro ⟨G, ⟨rfl, rfl⟩ | hG, rfl⟩
      · exact Or.inr ⟨rfl, rfl⟩
      · exact Or.inl ⟨G, hG, rfl⟩

/-- Deleting an image, as long as its IRI and those of its tags are no repositories with tags. -/
theorem TagView.deleted (h : TagView V s) (hnamed : V.Named) (hsafe : V.Safe env event)
    (htype : event.eventType = "ImageDeleted")
    (hs : ∀ q, AboutTags q → (q ∈ s' ↔
      q ∈ s ∧ q.subject ≠ .named ⟨imageOf env event "digest"⟩ ∧
        (∀ tagIri, V.points tagIri = some (imageOf env event "digest") → q.subject ≠ .named ⟨tagIri⟩) ∧
        ∀ tagIri, V.points tagIri = some (imageOf env event "digest") →
          q ≠ quad (repoOf env event) (pc "hasTag") (node tagIri) .default)) :
    TagView (V.deleted (imageOf env event "digest")) s' := by
  obtain ⟨himage, hnolink⟩ := hsafe.image htype
  have htags := hsafe.tags htype
  generalize imageOf env event "digest" = I at *
  have hpoints : ∀ G J, (V.deleted I).points G = some J ↔ V.points G = some J ∧ J ≠ I := by
    intro G J
    simp only [ImageTags.deleted]
    split
    · next heq => simp [heq, eq_comm]
    · next hne =>
      refine ⟨fun hJ => ⟨hJ, ?_⟩, And.left⟩
      rintro rfl
      exact hne hJ
  have hpresent : ∀ G, (V.deleted I).points G ≠ none ↔ V.points G ≠ none ∧ V.points G ≠ some I := by
    intro G
    simp only [ImageTags.deleted]
    split
    · next heq => simp [heq]
    · next hne => simp [hne]
  have hiri : ∀ G, V.points G ≠ none → G ≠ I := by
    rintro G hG rfl
    exact hG himage
  refine ⟨fun x o => ?_, fun x => ?_, fun iri o => ?_, fun iri o => ?_⟩
  · rw [hs _ ⟨rfl, Or.inl rfl⟩, h.points]
    simp only [hpoints]
    constructor
    · rintro ⟨⟨G, J, hG, rfl, rfl⟩, -, hsubject, -⟩
      refine ⟨G, J, ⟨hG, ?_⟩, rfl, rfl⟩
      rintro rfl
      exact hsubject G hG rfl
    · rintro ⟨G, J, ⟨hG, hJ⟩, rfl, rfl⟩
      refine ⟨⟨G, J, hG, rfl, rfl⟩, ?_, fun G' hG' heq => ?_, fun G' _ heq => ?_⟩
      · simpa using hiri G (by simp [hG])
      · obtain rfl : G = G' := by simpa using heq
        exact hJ (Option.some.inj (hG.symm.trans hG'))
      · simp [quad] at heq
  · rw [hs _ ⟨rfl, Or.inr (Or.inr (Or.inr ⟨rfl, rfl⟩))⟩, h.types]
    simp only [hpresent]
    constructor
    · rintro ⟨⟨G, hG, rfl⟩, -, hsubject, -⟩
      exact ⟨G, ⟨hG, fun heq => hsubject G heq rfl⟩, rfl⟩
    · rintro ⟨G, ⟨hG, hne⟩, rfl⟩
      refine ⟨⟨G, hG, rfl⟩, ?_, fun G' hG' heq => ?_, fun G' _ heq => ?_⟩
      · simpa using hiri G hG
      · obtain rfl : G = G' := by simpa using heq
        exact hne hG'
      · simp [quad] at heq
  · rw [hs _ ⟨rfl, Or.inr (Or.inl rfl)⟩, h.names]
    simp only [ImageTags.deleted, Set.mem_ofPred_eq]
    constructor
    · rintro ⟨⟨n, hn, rfl⟩, -, hsubject, -⟩
      exact ⟨n, ⟨hn, fun heq => hsubject iri heq rfl⟩, rfl⟩
    · rintro ⟨n, ⟨hn, hne⟩, rfl⟩
      refine ⟨⟨n, hn, rfl⟩, ?_, fun G' hG' heq => ?_, fun G' _ heq => ?_⟩
      · simpa [quad] using hiri iri (hnamed _ hn)
      · obtain rfl : iri = G' := by simpa [quad] using heq
        exact hne hG'
      · simp [quad] at heq
  · rw [hs _ ⟨rfl, Or.inr (Or.inr (Or.inl rfl))⟩, h.links]
    simp only [ImageTags.deleted, Set.mem_ofPred_eq]
    constructor
    · rintro ⟨⟨G, hG, rfl⟩, -, -, hlink⟩
      refine ⟨G, ⟨hG, fun heq => ?_⟩, rfl⟩
      -- a link to a deleted tag comes from the repository
      obtain rfl := (htags G heq).2 iri hG
      exact hlink G heq rfl
    · rintro ⟨G, ⟨hG, hne⟩, rfl⟩
      refine ⟨⟨G, hG, rfl⟩, ?_, fun G' hG' heq => ?_, fun G' hG' heq => ?_⟩
      · rintro heq
        obtain rfl : iri = I := by simpa [quad] using heq
        exact hnolink G hG
      · obtain rfl : iri = G' := by simpa [quad] using heq
        exact (htags iri hG').1 G hG
      · obtain ⟨-, rfl⟩ : iri = repoOf env event ∧ G = G' := by simpa [quad, node] using heq
        exact hne hG'

theorem ImageTags.Named.tagged (h : V.Named) : (V.tagged tagIri name image).Named := by
  rintro p (rfl | hp)
  · simp
  · by_cases hiri : p.1 = tagIri
    · simp [hiri]
    · rw [V.tagged_points_of_ne name image hiri]
      exact h p hp

theorem ImageTags.Named.linked (h : V.Named) : (V.linked repo tagIri).Named := h

theorem ImageTags.Named.deleted (h : V.Named) : (V.deleted image).Named := by
  rintro p ⟨hp, hne⟩
  simp only [ImageTags.deleted, if_neg hne]
  exact h p hp

/-- Inserting the facts of a tag that does not move. -/
theorem TagView.pointer_kept {q : Quad} (h : TagView V s) (hq : AboutTags q)
    (hkept : V.points tagIri = none ∨ V.points tagIri = some image) :
    q ∈ s ∨ q ∈ tagFacts tagIri name image ↔
      q ∈ s ∧ ¬ (q.subject = .named ⟨tagIri⟩ ∧ q.predicate = ⟨pc "pointsToDigest"⟩) ∨
        q ∈ tagFacts tagIri name image := by
  refine ⟨fun hmem => ?_, fun hmem => hmem.imp_left And.left⟩
  rcases hmem with hold | hnew
  · by_cases hpointer : q.subject = .named ⟨tagIri⟩ ∧ q.predicate = ⟨pc "pointsToDigest"⟩
    · -- the pointer that is there is the one that is inserted
      right
      obtain ⟨x, p, o, g⟩ := q
      obtain ⟨rfl, rfl⟩ := hpointer
      obtain rfl : g = .default := hq.1
      obtain ⟨G, I, hG, hiri, rfl⟩ := (h.points _ o).mp hold
      obtain rfl : tagIri = G := by simpa using hiri
      have himage : I = image := by
        rcases hkept with hnone | hsome
        · exact absurd (hG.symm.trans hnone) (by simp)
        · exact Option.some.inj (hG.symm.trans hsome)
      simp [tagFacts, quad, himage]
    · exact Or.inl ⟨hold, hpointer⟩
  · exact Or.inr hnew

/-- A push that does not move its tag. -/
theorem TagView.pushed {s : Store} (h : TagView V { q | q ∈ s }) (hnamed : V.Named)
    (htype : event.eventType = "ImagePushed") (hsafe : V.Safe env event)
    (hok : (projectStore env s event).1 = .ok ()) :
    TagView (V.next env event) { q | q ∈ projected env s event } ∧ (V.next env event).Named := by
  rw [ImageTags.next, if_pos htype]
  cases htag : pushedTag event with
  | none =>
    have hsame : ∀ q, AboutTags q → (q ∈ projected env s event ↔ q ∈ s) := by
      intro q hq
      rw [mem_imagePushed htype hok hq, htag]
      simp
    refine ⟨⟨fun x o => ?_, fun x => ?_, fun iri o => ?_, fun iri o => ?_⟩, hnamed⟩
    · exact (hsame _ ⟨rfl, Or.inl rfl⟩).trans (h.points x o)
    · exact (hsame _ ⟨rfl, Or.inr (Or.inr (Or.inr ⟨rfl, rfl⟩))⟩).trans (h.types x)
    · exact (hsame _ ⟨rfl, Or.inr (Or.inl rfl)⟩).trans (h.names iri o)
    · exact (hsame _ ⟨rfl, Or.inr (Or.inr (Or.inl rfl))⟩).trans (h.links iri o)
  | some tag =>
    have htagged : TagView (V.tagged (tagIriOf env event tag) tag (imageOf env event "digest"))
        { q | q ∈ s ∨ q ∈ tagFacts (tagIriOf env event tag) tag (imageOf env event "digest") } :=
      h.tagged fun q hq => h.pointer_kept hq (hsafe.push htype tag htag)
    refine ⟨htagged.linked fun q hq => ?_, hnamed.tagged.linked⟩
    have hmem := mem_imagePushed htype hok hq
    rw [htag] at hmem
    simp only [Option.some.injEq, exists_eq_left', ← or_assoc] at hmem
    exact hmem

/-- One event. -/
theorem TagView.next {s : Store} (h : TagView V { q | q ∈ s } ∧ V.Named)
    (htype : event.eventType ∈ ["ImagePushed", "ImageTagUpdated", "ImageDeleted"])
    (hsafe : V.Safe env event) (hok : (projectStore env s event).1 = .ok ()) :
    TagView (V.next env event) { q | q ∈ projected env s event } ∧ (V.next env event).Named := by
  simp only [List.mem_cons, List.not_mem_nil, or_false] at htype
  rcases htype with htype | htype | htype
  · exact h.1.pushed h.2 htype hsafe hok
  · rw [ImageTags.next, if_neg (by simp [htype]), if_pos htype]
    exact ⟨h.1.tagged fun q hq => mem_imageTagUpdated htype hok hq.1, h.2.tagged⟩
  · rw [ImageTags.next, if_neg (by simp [htype]), if_neg (by simp [htype])]
    have horphan : ∀ x, x ∈ orphans env event s ↔
        ∃ tagIri, V.points tagIri = some (imageOf env event "digest") ∧ x = .named ⟨tagIri⟩ := by
      intro x
      have hpoints := h.1.points x (node (imageOf env event "digest"))
      rw [orphans, Set.mem_ofPred_eq]
      constructor
      · rintro ⟨-, hmem⟩
        obtain ⟨G, I, hG, rfl, hI⟩ := hpoints.mp hmem
        obtain rfl : imageOf env event "digest" = I := by simpa [node] using hI
        exact ⟨G, hG, rfl⟩
      · rintro ⟨G, hG, rfl⟩
        refine ⟨fun heq => ?_, hpoints.mpr ⟨G, _, hG, rfl, rfl⟩⟩
        obtain rfl : G = imageOf env event "digest" := by simpa using heq
        rw [(hsafe.image htype).1] at hG
        cases hG
    refine ⟨h.1.deleted h.2 hsafe htype fun q hq => ?_, h.2.deleted⟩
    refine (mem_imageDeleted htype hok hq fun x hx => ?_).trans ?_
    · obtain ⟨G, -, rfl⟩ := (horphan x).mp hx
      exact ⟨G, rfl⟩
    · refine and_congr_right fun _ => and_congr_right fun _ => ?_
      refine and_congr ?_ ?_
      · rw [horphan]
        simp only [not_exists, not_and]
      · constructor
        · intro hnone G hG heq
          exact hnone ⟨G, (horphan _).mpr ⟨G, hG, rfl⟩, heq⟩
        · rintro hall ⟨G, hG, heq⟩
          obtain ⟨G', hG', hiri⟩ := (horphan _).mp hG
          obtain rfl : G = G' := by simpa using hiri
          exact hall G hG' heq

end Follow

/-! ## Whole runs -/

theorem tagView_empty : TagView ImageTags.empty { q | q ∈ ([] : Store) } := by
  refine ⟨?_, ?_, ?_, ?_⟩ <;> simp [ImageTags.empty]

/-- **An image tag points to the digest of its last push or update, and is gone when that is deleted**, in every
run of pushes that move no tag, of updates and of deletions whose IRIs do not coincide. -/
theorem image_tags_of_run (env : ProjectorEnv) (events : List EventEnvelope) (p : Projector)
    (htypes : ∀ e ∈ events, e.eventType ∈ ["ImagePushed", "ImageTagUpdated", "ImageDeleted"])
    (hrun : Projector.new.replayLoop env events = (.ok (), p))
    (hsafe : StepsMeet (fun V e => some (V.next env e)) (ImageTags.Safe env) ImageTags.empty events) :
    TagView (events.foldl (ImageTags.next env) ImageTags.empty) { q | q ∈ p.store } := by
  refine (Projector.replayLoop_simulation (R := fun V s => TagView V { q | q ∈ s } ∧ V.Named) ?_ hrun hsafe
    ⟨tagView_empty, by simp [ImageTags.Named, ImageTags.empty]⟩).1
  intro V s event hevent h hfirst hok
  exact TagView.next h (htypes event hevent) hfirst hok

/-- An event of the registry. -/
def sampleImageEvent (eventType tag digest : String) : EventEnvelope :=
  sampleEvent eventType none [("repository", .string "photos"), ("tag", .string tag),
    ("digest", .string digest), ("new_digest", .string digest)]

/-- An image is pushed with a tag, and deleted. -/
def pushedDeleted : List EventEnvelope :=
  [sampleImageEvent "ImagePushed" "v1" "sha256:a", sampleImageEvent "ImageDeleted" "" "sha256:a"]

/-- A tag is pushed again, with another image. -/
def pushedTwice : List EventEnvelope :=
  [sampleImageEvent "ImagePushed" "v1" "sha256:a", sampleImageEvent "ImagePushed" "v1" "sha256:b"]

/-- The IRI of the tag. -/
def samplePhotosTag : String := "https://picloud.local/registry/photos/tags/v1"

/-- The IRI of the first image. -/
def samplePhotosImage : String := "https://picloud.local/registry/photos/digests/sha256:a"

/-- The tags after the push. -/
theorem next_samplePush : ImageTags.next plainEnv ImageTags.empty
      (sampleImageEvent "ImagePushed" "v1" "sha256:a") =
    (ImageTags.empty.tagged samplePhotosTag "v1"
      samplePhotosImage).linked
        "https://picloud.local/registry/photos" samplePhotosTag := by
  have htag : pushedTag (sampleImageEvent "ImagePushed" "v1" "sha256:a") = some "v1" := by decide +kernel
  have hiri : tagIriOf plainEnv (sampleImageEvent "ImagePushed" "v1" "sha256:a") "v1" =
      samplePhotosTag := by
    decide +kernel
  have himage : imageOf plainEnv (sampleImageEvent "ImagePushed" "v1" "sha256:a") "digest" =
      samplePhotosImage := by
    decide +kernel
  have hrepo : repoOf plainEnv (sampleImageEvent "ImagePushed" "v1" "sha256:a") =
      "https://picloud.local/registry/photos" := by
    decide +kernel
  unfold ImageTags.next
  rw [htag, if_pos (by decide)]
  simp only [hiri, himage, hrepo]

theorem replay_pushedDeleted : Projector.new.replayLoop plainEnv pushedDeleted =
    (.ok (), Projector.new.projectEach plainEnv pushedDeleted) := by
  decide +kernel

/-- The tag is gone with its image. -/
theorem image_tags_pushedDeleted :
    Projector.new.replayLoop plainEnv pushedDeleted =
        (.ok (), Projector.new.projectEach plainEnv pushedDeleted) ∧
      TagView (pushedDeleted.foldl (ImageTags.next plainEnv) ImageTags.empty)
        { q | q ∈ (Projector.new.projectEach plainEnv pushedDeleted).store } := by
  have himage : imageOf plainEnv (sampleImageEvent "ImageDeleted" "" "sha256:a") "digest" =
      samplePhotosImage := by
    decide +kernel
  have hrepo : repoOf plainEnv (sampleImageEvent "ImageDeleted" "" "sha256:a") =
      "https://picloud.local/registry/photos" := by
    decide +kernel
  refine ⟨replay_pushedDeleted, image_tags_of_run plainEnv pushedDeleted _ (by decide) replay_pushedDeleted
    ⟨⟨fun _ _ _ => Or.inl rfl, fun h => absurd h (by decide), fun h => absurd h (by decide)⟩, ?_, trivial⟩⟩
  rw [next_samplePush]
  refine ⟨fun h => absurd h (by decide), fun _ => ?_, fun _ => ?_⟩
  · rw [himage]
    refine ⟨?_, fun tagIri hlink => ?_⟩
    · have hne : samplePhotosImage ≠ samplePhotosTag := by decide
      exact ImageTags.tagged_points_of_ne ImageTags.empty "v1" samplePhotosImage hne
    · rcases hlink with heq | hnone
      · have hne : samplePhotosImage ≠
            "https://picloud.local/registry/photos" := by decide
        exact absurd (congrArg Prod.fst heq) hne
      · exact hnone
  · intro tagIri hpoints
    have htag : tagIri = samplePhotosTag := by
      by_contra hne
      rw [himage] at hpoints
      exact absurd ((ImageTags.tagged_points_of_ne ImageTags.empty "v1" samplePhotosImage hne).symm.trans
        hpoints) nofun
    refine ⟨fun other hlink => ?_, fun repo hlink => ?_⟩
    · rcases hlink with heq | hnone
      · have hne : samplePhotosTag ≠ "https://picloud.local/registry/photos" := by decide
        exact absurd (htag.symm.trans (congrArg Prod.fst heq)) hne
      · exact hnone
    · rcases hlink with heq | hnone
      · rw [hrepo]
        exact congrArg Prod.fst heq
      · exact hnone.elim

/-- The tag points to both images. -/
theorem not_image_tags_pushedTwice :
    Projector.new.replayLoop plainEnv pushedTwice =
        (.ok (), Projector.new.projectEach plainEnv pushedTwice) ∧
      ¬ TagView (pushedTwice.foldl (ImageTags.next plainEnv) ImageTags.empty)
        { q | q ∈ (Projector.new.projectEach plainEnv pushedTwice).store } := by
  refine ⟨by decide +kernel, fun h => ?_⟩
  have hfirst := (h.points (.named ⟨samplePhotosTag⟩)
    (node samplePhotosImage)).mp (by decide +kernel)
  have hsecond := (h.points (.named ⟨samplePhotosTag⟩)
    (node "https://picloud.local/registry/photos/digests/sha256:b")).mp (by decide +kernel)
  obtain ⟨G, I, hG, hiri, hI⟩ := hfirst
  obtain ⟨G', I', hG', hiri', hI'⟩ := hsecond
  simp only [Subject.named.injEq, NamedNode.mk.injEq, node, Term.named.injEq] at hiri hiri' hI hI'
  subst hiri hiri' hI hI'
  exact absurd (hG.symm.trans hG') (by decide)

end Picloud
