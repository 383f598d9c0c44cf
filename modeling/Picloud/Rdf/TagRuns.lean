import Picloud.Rdf.Facts

/-!
# Tags in the graph

Reference: `project_tag_added` and `project_tag_removed` of `picloud-rdf/src/implementation.rs`.

A tag is a blank node between its resource, its key and its value. The name of the node joins the three with
hyphens, so different tags may share one. As long as no event meets another present tag with the name of its
own, the graph holds the tags that were added and not removed.
-/

namespace Picloud

open Lib

/-! ## Tags -/

/-- A tag of a resource. -/
structure Tag where
  iri : String
  key : String
  value : String
deriving DecidableEq

/-- The name of the blank node of the tag. -/
def Tag.node (t : Tag) : String := tagBlankNode t.iri t.key t.value

/-- The tag that an event is about. -/
def tagOf (event : EventEnvelope) : Tag :=
  ⟨event.iriOrSource "resource_iri", event.strD "key" "", event.strD "value" ""⟩

/-- Apply an event to a set of tags. -/
def applyTag (A : Set Tag) (event : EventEnvelope) : Set Tag :=
  if event.eventType = "TagAdded" then insert (tagOf event) A else A \ {tagOf event}

/-- The tag can be read in the default graph. -/
def Readable (s : Store) (t : Tag) : Prop :=
  ∃ b : Subject, ⟨.named ⟨t.iri⟩, ⟨pc "tag"⟩, b.toTerm, .default⟩ ∈ s ∧
    ⟨b, ⟨pc "tagKey"⟩, simple t.key, .default⟩ ∈ s ∧ ⟨b, ⟨pc "tagValue"⟩, simple t.value, .default⟩ ∈ s

/-- The tag of the event shares the name of its node with no other tag that is present. -/
def NoClash (A : Set Tag) (event : EventEnvelope) : Prop :=
  ∀ t ∈ A, t.node = (tagOf event).node → t = tagOf event

/-! ## What the handlers do -/

/-- The quads of a tag in the default graph. -/
def Tag.quads (t : Tag) : List Quad := tagQuads t.iri t.key t.value .default

section Handlers

variable {env : ProjectorEnv} {event : EventEnvelope} {s : Store} {q : Quad}

/-- Adding a tag inserts its quads. -/
theorem mem_tagAdded (htype : event.eventType = "TagAdded")
    (hok : (projectStore env s event).1 = .ok ()) (hq : q.graph = .default) :
    q ∈ projected env s event ↔ q ∈ s ∨ q ∈ (tagOf event).quads := by
  have hscript : script env event = projectTagAdded env event := by
    rw [script, htype]
    rfl
  obtain ⟨hiff, heq⟩ := projectStore_ops s (hscript.trans rfl)
  rw [heq, mem_runOps_of_puts (hiff.mp hok) (by simp)]
  refine or_congr_right ?_
  simp only [List.cons_append, List.nil_append, List.mem_cons, List.mem_append, List.mem_map,
    List.mem_flatMap, Option.mem_toList, reduceCtorEq, false_or, Op.put.injEq, exists_eq_right]
  refine ⟨fun h => h.resolve_right ?_, Or.inl⟩
  rintro ⟨product, -, hproduct⟩
  simp only [tagQuads, List.mem_cons, List.not_mem_nil, or_false] at hproduct
  rcases hproduct with rfl | rfl | rfl <;> cases hq

/-- Removing a tag takes what is about its blank node, and the link of its resource to it. -/
theorem mem_tagRemoved (htype : event.eventType = "TagRemoved")
    (hok : (projectStore env s event).1 = .ok ()) :
    q ∈ projected env s event ↔ q ∈ s ∧ q.subject ≠ .blank (tagOf event).node ∧
      ¬ (q.subject = .named ⟨(tagOf event).iri⟩ ∧ q.predicate = ⟨pc "tag"⟩ ∧
        q.object = .blank (tagOf event).node) := by
  have hscript : script env event = projectTagRemoved event := by
    rw [script, htype]
    rfl
  obtain ⟨hiff, heq⟩ := projectStore_ops s (hscript.trans rfl)
  rw [heq, mem_runOps_of_no_puts (hiff.mp hok) (by simp)]
  refine and_congr_right fun _ => ?_
  simp only [List.mem_cons, reduceCtorEq, List.not_mem_nil, false_or, or_false, Op.del.injEq,
    forall_eq_or_imp, forall_eq, Bool.eq_false_iff, Ne, Pattern.matches_iff, admits_some, admits_none,
    and_true]
  refine and_congr (not_congr eq_comm) (not_congr ?_)
  exact and_congr eq_comm (and_congr eq_comm eq_comm)

end Handlers

/-! ## The invariant -/

/-- The default graph holds the quads of the tags, and no two tags share a node. -/
structure TagStore (A : Set Tag) (s : Store) : Prop where
  quads : ∀ q : Quad, q.graph = .default → (q ∈ s ↔ ∃ t ∈ A, q ∈ t.quads)
  distinct : ∀ t ∈ A, ∀ t' ∈ A, t.node = t'.node → t = t'

section Invariant

variable {env : ProjectorEnv} {A : Set Tag} {s : Store} {event : EventEnvelope}

theorem mem_tagQuads {t : Tag} {q : Quad} : q ∈ t.quads ↔
    q = ⟨.named ⟨t.iri⟩, ⟨pc "tag"⟩, .blank t.node, .default⟩ ∨
      q = ⟨.blank t.node, ⟨pc "tagKey"⟩, simple t.key, .default⟩ ∨
      q = ⟨.blank t.node, ⟨pc "tagValue"⟩, simple t.value, .default⟩ := by
  simp only [Tag.quads, tagQuads, List.mem_cons, List.not_mem_nil, or_false, Tag.node]

theorem tagStore_nil : TagStore ∅ [] := ⟨by simp, by simp⟩

theorem TagStore.added (h : TagStore A s) (htype : event.eventType = "TagAdded")
    (hok : (projectStore env s event).1 = .ok ()) (hclash : NoClash A event) :
    TagStore (applyTag A event) (projected env s event) := by
  rw [applyTag, if_pos htype]
  refine ⟨fun q hq => ?_, ?_⟩
  · rw [mem_tagAdded htype hok hq, h.quads q hq, or_comm]
    simp only [Set.mem_insert_iff, exists_eq_or_imp]
  · rintro t (rfl | ht) t' (rfl | ht') hnode
    · rfl
    · exact (hclash t' ht' hnode.symm).symm
    · exact hclash t ht hnode
    · exact h.distinct t ht t' ht' hnode

theorem TagStore.removed (h : TagStore A s) (htype : event.eventType = "TagRemoved")
    (hok : (projectStore env s event).1 = .ok ()) (hclash : NoClash A event) :
    TagStore (applyTag A event) (projected env s event) := by
  rw [applyTag, if_neg (by simp [htype])]
  refine ⟨fun q hq => ?_, fun t ht t' ht' => h.distinct t ht.1 t' ht'.1⟩
  rw [mem_tagRemoved htype hok, h.quads q hq]
  constructor
  · rintro ⟨⟨t, ht, hmem⟩, hsubject, hlink⟩
    refine ⟨t, ⟨ht, ?_⟩, hmem⟩
    rintro rfl
    rcases mem_tagQuads.mp hmem with rfl | rfl | rfl
    · exact hlink ⟨rfl, rfl, rfl⟩
    · exact hsubject rfl
    · exact hsubject rfl
  · rintro ⟨t, ⟨ht, hne⟩, hmem⟩
    -- the quads of another tag are not about the node that is taken
    have hnode : t.node ≠ (tagOf event).node := fun heq => hne (hclash t ht heq)
    refine ⟨⟨t, ht, hmem⟩, ?_, ?_⟩
    · rcases mem_tagQuads.mp hmem with rfl | rfl | rfl <;> simp [hnode]
    · rcases mem_tagQuads.mp hmem with rfl | rfl | rfl <;> simp [hnode]

/-- The tags of the set are those that can be read. -/
theorem TagStore.readable_iff (h : TagStore A s) (t : Tag) : Readable s t ↔ t ∈ A := by
  constructor
  · rintro ⟨b, hlink, hkey, hvalue⟩
    rw [h.quads _ rfl] at hlink hkey hvalue
    obtain ⟨t₁, ht₁, hmem₁⟩ := hlink
    obtain ⟨t₂, ht₂, hmem₂⟩ := hkey
    obtain ⟨t₃, ht₃, hmem₃⟩ := hvalue
    simp only [mem_tagQuads, Quad.mk.injEq, NamedNode.mk.injEq, pc_inj, Subject.named.injEq, simple,
      Term.literal.injEq, Literal.mk.injEq, reduceCtorEq, and_false, false_and, or_false, false_or,
      String.reduceEq, true_and, and_true] at hmem₁ hmem₂ hmem₃
    obtain ⟨hiri, hb⟩ := hmem₁
    obtain ⟨rfl, hkey⟩ := hmem₂
    obtain ⟨hb', hvalue⟩ := hmem₃
    have hnode : t₂.node = t₁.node := Term.blank.inj hb
    obtain rfl := h.distinct t₂ ht₂ t₁ ht₁ hnode
    obtain rfl := h.distinct t₂ ht₂ t₃ ht₃ (Subject.blank.inj hb')
    cases t
    cases t₂
    simp only at hiri hkey hvalue
    subst hiri hkey hvalue
    exact ht₁
  · intro ht
    refine ⟨.blank t.node, ?_, ?_, ?_⟩
    · exact (h.quads _ rfl).mpr ⟨t, ht, mem_tagQuads.mpr (Or.inl rfl)⟩
    · exact (h.quads _ rfl).mpr ⟨t, ht, mem_tagQuads.mpr (Or.inr (Or.inl rfl))⟩
    · exact (h.quads _ rfl).mpr ⟨t, ht, mem_tagQuads.mpr (Or.inr (Or.inr rfl))⟩

end Invariant

/-! ## Whole runs -/

/-- **The tags in the graph are those added and not removed**, in every run whose events find no other present
tag with the node of their own. -/
theorem tags_of_run (env : ProjectorEnv) (events : List EventEnvelope) (p : Projector)
    (htypes : ∀ e ∈ events, e.eventType = "TagAdded" ∨ e.eventType = "TagRemoved")
    (hrun : Projector.new.replayLoop env events = (.ok (), p))
    (hclash : StepsMeet (fun A event => some (applyTag A event)) NoClash ∅ events) :
    ∀ t, Readable p.store t ↔ t ∈ events.foldl applyTag ∅ := by
  refine TagStore.readable_iff (Projector.replayLoop_simulation (R := TagStore) ?_ hrun hclash tagStore_nil)
  intro A s event hevent hstore hfirst hok
  rcases htypes event hevent with htype | htype
  · exact hstore.added htype hok hfirst
  · exact hstore.removed htype hok hfirst

/-- An event about a tag. -/
def sampleTagEvent (eventType key value : String) : EventEnvelope :=
  sampleEvent eventType none
    [("resource_iri", .string "https://picloud.local/r"), ("key", .string key), ("value", .string value)]

/-- A hyphen may belong to the key or to the value. -/
theorem node_eq_of_join {t t' : Tag} (hiri : t.iri = t'.iri)
    (hjoin : t.key ++ "-" ++ t.value = t'.key ++ "-" ++ t'.value) : t.node = t'.node := by
  have hassoc : ∀ u : Tag, "tag-" ++ u.iri ++ "-" ++ u.key ++ "-" ++ u.value =
      "tag-" ++ u.iri ++ "-" ++ (u.key ++ "-" ++ u.value) := by
    intro u
    simp only [String.append_assoc]
  rw [Tag.node, Tag.node, tagBlankNode, tagBlankNode, hassoc t, hassoc t', hiri, hjoin]

/-- In the sample environment events about tags succeed. -/
theorem project_plain (s : Store) {event : EventEnvelope}
    (htype : event.eventType = "TagAdded" ∨ event.eventType = "TagRemoved") :
    (projectStore plainEnv s event).1 = .ok () := by
  rcases htype with htype | htype
  · have hscript : script plainEnv event = projectTagAdded plainEnv event := by
      rw [script, htype]
      rfl
    refine (projectStore_ops s (hscript.trans rfl)).1.mpr (runOps_ok_iff.mpr ?_)
    intro op hop
    cases op with
    | fail message => simp at hop
    | _ => rfl
  · have hscript : script plainEnv event = projectTagRemoved event := by
      rw [script, htype]
      rfl
    refine (projectStore_ops s (hscript.trans rfl)).1.mpr (runOps_ok_iff.mpr ?_)
    intro op hop
    cases op with
    | fail message => simp at hop
    | _ => rfl

theorem tagOf_sample (eventType key value : String) :
    tagOf (sampleTagEvent eventType key value) = ⟨"https://picloud.local/r", key, value⟩ := by
  have hkey : ("key" == "resource_iri") = false := by decide
  have hvalue : ("value" == "resource_iri") = false ∧ ("value" == "key") = false := by decide
  simp [tagOf, sampleTagEvent, sampleEvent, EventEnvelope.new, EventEnvelope.iriOrSource,
    EventEnvelope.strD, EventEnvelope.str, Json.index, Json.get?, Json.asStr, List.lookup_cons, hkey, hvalue]

/-- A tag is added and removed again. -/
def addedRemoved : List EventEnvelope :=
  [sampleTagEvent "TagAdded" "team" "search", sampleTagEvent "TagRemoved" "team" "search"]

/-- Two tags with hyphens in the same place are added. -/
def hyphenated : List EventEnvelope :=
  [sampleTagEvent "TagAdded" "a-b" "c", sampleTagEvent "TagAdded" "a" "b-c"]

theorem addedRemoved_types : ∀ e ∈ addedRemoved, e.eventType = "TagAdded" ∨ e.eventType = "TagRemoved" := by
  simp [addedRemoved, sampleTagEvent, sampleEvent, EventEnvelope.new]

theorem hyphenated_types : ∀ e ∈ hyphenated, e.eventType = "TagAdded" ∨ e.eventType = "TagRemoved" := by
  simp [hyphenated, sampleTagEvent, sampleEvent, EventEnvelope.new]

/-- No tag is left, and none can be read. -/
theorem tags_of_addedRemoved :
    (Projector.new.replayLoop plainEnv addedRemoved).1 = .ok () ∧
      ∀ t, Readable (Projector.new.projectEach plainEnv addedRemoved).store t ↔
        t ∈ addedRemoved.foldl applyTag ∅ := by
  refine ⟨by rw [Projector.replayLoop_of_ok (fun e he s => project_plain s (addedRemoved_types e he)) Projector.new], ?_⟩
  refine tags_of_run plainEnv addedRemoved _ addedRemoved_types
    (Projector.replayLoop_of_ok (fun e he s => project_plain s (addedRemoved_types e he)) Projector.new) ⟨?_, ?_, trivial⟩
  · intro t ht
    exact ht.elim
  · intro t ht _
    have htype : (sampleTagEvent "TagAdded" "team" "search").eventType = "TagAdded" := rfl
    rw [applyTag, if_pos htype, Set.mem_insert_iff] at ht
    rcases ht with rfl | hnone
    · rw [tagOf_sample, tagOf_sample]
    · exact hnone.elim

/-- The two tags share a node, and a tag that was never added can be read. -/
theorem not_tags_of_hyphenated :
    (Projector.new.replayLoop plainEnv hyphenated).1 = .ok () ∧
      ¬ ∀ t, Readable (Projector.new.projectEach plainEnv hyphenated).store t ↔
        t ∈ hyphenated.foldl applyTag ∅ := by
  refine ⟨by rw [Projector.replayLoop_of_ok fun e he s => project_plain s (hyphenated_types e he)], fun h => ?_⟩
  have hnode : (tagOf (sampleTagEvent "TagAdded" "a-b" "c")).node =
      (tagOf (sampleTagEvent "TagAdded" "a" "b-c")).node := by
    rw [tagOf_sample, tagOf_sample]
    exact node_eq_of_join rfl (by decide)
  have hmem : ∀ q : Quad, q.graph = .default →
      q ∈ (tagOf (sampleTagEvent "TagAdded" "a-b" "c")).quads ∨
        q ∈ (tagOf (sampleTagEvent "TagAdded" "a" "b-c")).quads →
      q ∈ (Projector.new.projectEach plainEnv hyphenated).store := by
    intro q hq hquads
    rw [Projector.store_projectEach, hyphenated, List.foldl_cons, List.foldl_cons, List.foldl_nil,
      mem_tagAdded rfl (project_plain _ (Or.inl rfl)) hq,
      mem_tagAdded rfl (project_plain _ (Or.inl rfl)) hq, or_assoc]
    exact Or.inr hquads
  have hreadable : Readable (Projector.new.projectEach plainEnv hyphenated).store
      ⟨"https://picloud.local/r", "a", "c"⟩ := by
    refine ⟨.blank (tagOf (sampleTagEvent "TagAdded" "a-b" "c")).node, ?_, ?_, ?_⟩
    · refine hmem _ rfl (Or.inl (mem_tagQuads.mpr (Or.inl ?_)))
      rw [tagOf_sample]
      rfl
    · refine hmem _ rfl (Or.inr (mem_tagQuads.mpr (Or.inr (Or.inl ?_))))
      rw [hnode, tagOf_sample]
    · refine hmem _ rfl (Or.inl (mem_tagQuads.mpr (Or.inr (Or.inr ?_))))
      rw [tagOf_sample]
  have hmember := (h _).mp hreadable
  have htype : ∀ key value, (sampleTagEvent "TagAdded" key value).eventType = "TagAdded" := fun _ _ => rfl
  simp [hyphenated, applyTag, htype, tagOf_sample] at hmember

end Picloud
