import Picloud.Rdf.Facts
import Picloud.Server.ProductGraph

/-!
# The group endpoints

Reference: `handle_groups` and `handle_group` of `picloud-http/src/implementation.rs`, over the graph that
`project_group_membership_changed` of `picloud-rdf` writes and `execute_query` reads.

The projection keeps the members. The handlers read the values of a solution as texts, and a value is an
object, so every group is listed with an empty IRI, and no group has a role: it is not found.
-/

namespace Picloud

open Lib Lib.Sparql

/-! ## The queries -/

/-- The query of `handle_groups`. -/
def groupsQuery : String :=
  "SELECT ?group ?desc WHERE \x7b ?group a <https://picloud.local/ontology#Group> . " ++
    "OPTIONAL \x7b ?group <https://picloud.local/ontology#description> ?desc \x7d \x7d"

/-- The queries of `handle_group`, each for the values of one property. -/
def groupValueQuery (groupIri property var : String) : String :=
  "SELECT ?" ++ var ++ " WHERE \x7b <" ++ groupIri ++ "> <" ++ pc property ++ "> ?" ++ var ++ " \x7d"

/-- `?group a picloud:Group`. -/
def typedGroups : GraphPattern := .basic fun row triples => triples.filterMap fun t =>
  if t.predicate = ⟨rdfType⟩ ∧ t.object = picloudTerm "Group" then extend row "group" t.subject.toTerm else none

/-- `?group picloud:description ?desc`. -/
def describedGroups : GraphPattern := .basic fun row triples => triples.filterMap fun t =>
  if t.predicate = ⟨pc "description"⟩ then merge row [("group", t.subject.toTerm), ("desc", t.object)] else none

/-- `<subject> picloud:property ?var`. -/
def groupValues (groupIri property var : String) : GraphPattern := .basic fun row triples =>
  triples.filterMap fun t =>
    if t.subject = .named ⟨groupIri⟩ ∧ t.predicate = ⟨pc property⟩ then extend row var t.object else none

/-- SPARQL reads the query for groups, and the one for the roles of an IRI, as they are written; the latter is
never more than a selection of roles, whatever is put into it. -/
structure ReadsGroupQueries (checks : TermChecks) (srv : GraphServer) : Prop where
  groups : srv.parse groupsQuery = .ok ⟨none, typedGroups.optional describedGroups, .select ["group", "desc"]⟩
  roles : ∀ iri, checks.iri iri = none → srv.parse (groupValueQuery iri "hasRole" "role") =
    .ok ⟨none, groupValues iri "hasRole" "role", .select ["role"]⟩
  selects : ∀ iri, Selects srv (groupValueQuery iri "hasRole" "role") ["role"]

/-! ## The handlers -/

/-- A group of the list. -/
structure GroupEntry where
  iri : String
  description : Option String
deriving DecidableEq

/-- A group with its roles and members. -/
structure ShownGroup where
  iri : String
  name : String
  description : Option String
  roles : List String
  members : List String
deriving DecidableEq

/-- A text or nothing. -/
def optionText (text : Option String) : Json := (text.map Json.string).getD .null

/-- `json!` of an entry. -/
def GroupEntry.toJson (g : GroupEntry) : Json :=
  .object [("iri", .string g.iri), ("description", optionText g.description)]

/-- `json!` of a group. -/
def ShownGroup.toJson (g : ShownGroup) : Json :=
  .object [("iri", .string g.iri), ("name", .string g.name), ("description", optionText g.description),
    ("roles", .array (g.roles.map .string)), ("members", .array (g.members.map .string))]

/-- `b.get(var).and_then(|v| v.as_str())`. -/
def groupBindingText (var : String) (binding : Json) : Option String := (binding.get? var).bind Json.asStr

/-- An entry of the list. -/
def groupEntry (binding : Json) : GroupEntry :=
  ⟨(groupBindingText "group" binding).getD "", groupBindingText "desc" binding⟩

/-- An answer, before it is written. -/
inductive GroupAnswer where
  | unavailable
  | failed (e : PiCloudError)
  | listed (groups : List GroupEntry)
  | notFound (name : String)
  | shown (group : ShownGroup)

section Handlers

variable (srv : GraphServer) (store : Store)

/-- A response with an error text. -/
def errorResponse (status : ℕ) (message : String) : GraphResponse :=
  ⟨status, [("content-type", "application/json")], srv.jsonText (.object [("error", .string message)])⟩

/-- The answer as a response. -/
def GroupAnswer.respond (ct : GraphContentType) : GroupAnswer → GraphResponse
  | .unavailable => errorResponse srv 503 "projector not available"
  | .failed e => errorResponse srv 500 e.display
  | .listed groups => resourceResponse srv (.object [("groups", .array (groups.map GroupEntry.toJson))]) ct
  | .notFound name => errorResponse srv 404 ("group '" ++ name ++ "' not found")
  | .shown group => resourceResponse srv group.toJson ct

/-- The answer of `handle_groups`. -/
def groupsAnswer : GroupAnswer :=
  if srv.hasProjector then
    match executeQuery srv store groupsQuery with
    | .ok bindings => .listed (bindings.map groupEntry)
    | .error e => .failed e
  else .unavailable

/-- The values of a variable that are texts; there are none if the query fails. -/
def queriedTexts (text var : String) : List String :=
  match executeQuery srv store text with
  | .ok bindings => bindings.filterMap (groupBindingText var)
  | .error _ => []

/-- The value of a variable in the first solution, if it is a text. -/
def firstQueriedText (text var : String) : Option String :=
  match executeQuery srv store text with
  | .ok bindings => bindings.head?.bind (groupBindingText var)
  | .error _ => none

/-- The answer of `handle_group`. -/
def groupAnswer (name : String) : GroupAnswer :=
  let groupIri := srv.iris.group name
  if srv.hasProjector then
    let roles := queriedTexts srv store (groupValueQuery groupIri "hasRole" "role") "role"
    let members := queriedTexts srv store (groupValueQuery groupIri "hasMember" "member") "member"
    let description := firstQueriedText srv store (groupValueQuery groupIri "description" "desc") "desc"
    if roles.isEmpty then .notFound name else .shown ⟨groupIri, name, description, roles, members⟩
  else .unavailable

/-- `handle_groups`. -/
def handleGroups (accept : Option String) : GraphResponse :=
  (groupsAnswer srv store).respond srv ((accept.map GraphContentType.fromAccept).getD .json)

/-- `handle_group`. -/
def handleGroup (accept : Option String) (name : String) : GraphResponse :=
  (groupAnswer srv store name).respond srv ((accept.map GraphContentType.fromAccept).getD .json)

/-- The status tells whether the group is found. -/
theorem status_handleGroup (accept : Option String) (name : String) :
    (handleGroup srv store accept name).status = 404 ↔ groupAnswer srv store name = .notFound name := by
  rw [handleGroup, groupAnswer]
  dsimp only
  by_cases hprojector : srv.hasProjector = true
  · rw [if_pos hprojector]
    split_ifs
    · simp [GroupAnswer.respond, errorResponse]
    · simp [GroupAnswer.respond, resourceResponse]
  · rw [if_neg hprojector]
    simp [GroupAnswer.respond, errorResponse]

end Handlers

/-! ## Memberships -/

/-- The group that the event is about. -/
def changedGroup (event : EventEnvelope) : String := event.iriOrSource "group_iri"

/-- The member that the event is about. -/
def changedMember (event : EventEnvelope) : String := event.strD "member_iri" ""

/-- What happens to the member. -/
def membershipAction (event : EventEnvelope) : String := event.strD "action" "added"

/-- What happens to a member of a group, one change after the other; other actions are passed over. -/
def membershipChanges (events : List EventEnvelope) (group member : String) : List String :=
  (events.filter fun e => changedGroup e = group ∧ changedMember e = member ∧
    membershipAction e ∈ ["added", "removed"]).map membershipAction

/-- The last change of the membership is that the member is added. -/
def LastAdded (events : List EventEnvelope) (group member : String) : Prop :=
  (membershipChanges events group member).getLast? = some "added"

/-- A change of a membership whose group and member are IRIs. -/
structure MembershipChange (checks : TermChecks) (event : EventEnvelope) : Prop where
  type : event.eventType = "GroupMembershipChanged"
  group : checks.iri (changedGroup event) = none
  member : checks.iri (changedMember event) = none

/-- A graph with any roles and descriptions of groups, and no members: the groups and their roles are IRIs. -/
structure GroupGraph (checks : TermChecks) (s : Store) : Prop where
  groups : ∀ iri, IsA s (.named ⟨iri⟩) "Group" → checks.iri iri = none
  roles : ∀ iri o, Has s iri "hasRole" o → ∃ role, o = node role
  members : ∀ iri o, ¬ Has s iri "hasMember" o

/-- The group is in the graph from the start, or a member is added to it. -/
def GroupAppears (s : Store) (events : List EventEnvelope) (x : Subject) : Prop :=
  IsA s x "Group" ∨ ∃ e ∈ events, membershipAction e = "added" ∧ x = .named ⟨changedGroup e⟩

section Projection

variable {env : ProjectorEnv} {event : EventEnvelope} {s : Store} {x : Subject} {iri name : String} {o : Term}

/-- The membership that the event is about. -/
def membershipQuad (event : EventEnvelope) : Quad :=
  quad (changedGroup event) (pc "hasMember") (node (changedMember event)) .default

/-- The type of the group that the event is about. -/
def groupQuad (event : EventEnvelope) : Quad :=
  quad (changedGroup event) rdfType (picloudTerm "Group") .default

/-- What the projection of a change does. -/
theorem mem_projected_membership (h : MembershipChange env.checks event) {q : Quad} :
    q ∈ projected env s event ↔
      (q ∈ s ∧ ¬ (membershipAction event = "removed" ∧ q = membershipQuad event)) ∨
        membershipAction event = "added" ∧ (q = groupQuad event ∨ q = membershipQuad event) := by
  have hgroup : env.checks.iri (event.iriOrSource "group_iri") = none := h.group
  have hmember : env.checks.iri (event.strD "member_iri" "") = none := h.member
  have hproperty := env.iri_pc "hasMember" (by decide)
  have hscript : script env event = projectGroupMembershipChanged event := by
    rw [script, h.type]
    rfl
  rw [projected_eq, hscript, projectGroupMembershipChanged]
  by_cases hadded : event.strD "action" "added" = "added"
  · have haction : membershipAction event = "added" := hadded
    rw [if_pos hadded, runScript_singleton, Step.run, haction, runOps_insertTriple hgroup env.iri_rdfType,
      insertNode, runOps_named_ok _ hmember, ← List.append_nil (insertTriple _ _ _),
      runOps_insertTriple hgroup hproperty, runOps, Store.mem_insert, Store.mem_insert]
    simp only [or_assoc, true_and, show ¬ "added" = "removed" by decide, false_and, not_false_iff, and_true]
    rfl
  · have haction : ¬ membershipAction event = "added" := hadded
    rw [if_neg hadded]
    by_cases hremoved : event.strD "action" "added" = "removed"
    · have hremove : membershipAction event = "removed" := hremoved
      rw [if_pos hremoved, runScript_singleton, Step.run, runOps_named_ok _ hgroup, runOps_named_ok _ hproperty,
        runOps_named_ok _ hmember]
      change q ∈ s.removeIf (membershipQuad event).pattern.matches ↔ _
      rw [Store.mem_removeIf, Bool.eq_false_iff, Ne, Quad.pattern_matches, hremove]
      simp only [show ¬ "removed" = "added" by decide, false_and, or_false, true_and]
      exact and_congr_right fun _ => not_congr eq_comm
    · have hremove : ¬ membershipAction event = "removed" := hremoved
      rw [if_neg hremoved, runScript]
      simp only [haction, hremove, false_and, or_false, not_false_iff, and_true]

theorem isA_membership (h : MembershipChange env.checks event) :
    IsA (projected env s event) x "Group" ↔
      IsA s x "Group" ∨ membershipAction event = "added" ∧ x = .named ⟨changedGroup event⟩ := by
  unfold IsA
  rw [mem_projected_membership h]
  simp [membershipQuad, groupQuad, quad]

theorem hasRole_membership (h : MembershipChange env.checks event) :
    Has (projected env s event) iri "hasRole" o ↔ Has s iri "hasRole" o := by
  unfold Has
  rw [mem_projected_membership h]
  simp [membershipQuad, groupQuad, quad]

theorem hasMember_membership (h : MembershipChange env.checks event) :
    Has (projected env s event) iri "hasMember" o ↔
      (Has s iri "hasMember" o ∧ ¬ (membershipAction event = "removed" ∧ iri = changedGroup event ∧
        o = node (changedMember event))) ∨
      membershipAction event = "added" ∧ iri = changedGroup event ∧ o = node (changedMember event) := by
  unfold Has
  rw [mem_projected_membership h]
  simp [membershipQuad, groupQuad, quad]

end Projection

/-! ## The history of a graph -/

section History

variable {env : ProjectorEnv} {s : Store} {events : List EventEnvelope} {event : EventEnvelope}
  {group member : String}

theorem lastAdded_append_singleton : LastAdded (events ++ [event]) group member ↔
    (LastAdded events group member ∧ ¬ (membershipAction event = "removed" ∧ group = changedGroup event ∧
        member = changedMember event)) ∨
      membershipAction event = "added" ∧ group = changedGroup event ∧ member = changedMember event := by
  unfold LastAdded membershipChanges
  rw [List.filter_append, List.map_append, List.filter_singleton]
  by_cases hsame : changedGroup event = group ∧ changedMember event = member
  · obtain ⟨rfl, rfl⟩ := hsame
    by_cases hadded : membershipAction event = "added"
    · simp [hadded]
    · by_cases hremoved : membershipAction event = "removed"
      · simp [hremoved]
      · simp [hadded, hremoved]
  · have hother : ¬ (group = changedGroup event ∧ member = changedMember event) :=
      fun h => hsame ⟨h.1.symm, h.2.symm⟩
    rw [decide_eq_false fun h => hsame ⟨h.1, h.2.1⟩]
    simp [hother]

/-- **After changes of memberships the groups are those that appear, the members those that are added last, and
the roles are the same.** -/
theorem graph_of_memberships (hevents : ∀ e ∈ events, MembershipChange env.checks e)
    (hstart : GroupGraph env.checks s) :
    (∀ x, IsA (events.foldl (projected env) s) x "Group" ↔ GroupAppears s events x) ∧
    (∀ iri member, Has (events.foldl (projected env) s) iri "hasMember" (node member) ↔
      LastAdded events iri member) ∧
    ∀ iri o, Has (events.foldl (projected env) s) iri "hasRole" o ↔ Has s iri "hasRole" o := by
  induction events using List.reverseRecOn with
  | nil =>
    refine ⟨fun x => by simp [GroupAppears], fun iri member => ?_, fun _ _ => Iff.rfl⟩
    simp [LastAdded, membershipChanges, hstart.members]
  | append_singleton events event ih =>
    obtain ⟨hgroups, hmembers, hroles⟩ := ih fun e he => hevents e (List.mem_append_left _ he)
    have hevent := hevents event (by simp)
    rw [List.foldl_append, List.foldl_cons, List.foldl_nil]
    refine ⟨fun x => ?_, fun iri member => ?_, fun iri o => ?_⟩
    · rw [isA_membership hevent, hgroups x]
      simp [GroupAppears, or_and_right, exists_or, or_assoc]
    · rw [hasMember_membership hevent, hmembers iri member, lastAdded_append_singleton]
      have hnode : ∀ a b : String, node a = node b ↔ a = b := by simp [node]
      simp only [hnode]
    · rw [hasRole_membership hevent, hroles iri o]

end History

/-! ## What is claimed -/

/-- The IRIs that are typed as groups are listed, and nothing else. -/
def ListsGroups (srv : GraphServer) (store : Store) : Prop :=
  ∃ groups, groupsAnswer srv store = .listed groups ∧
    ∀ iri, iri ∈ groups.map GroupEntry.iri ↔ IsA store (.named ⟨iri⟩) "Group"

/-- A group is not found exactly when it is not in the graph; otherwise its roles are shown, and the members that
are added last. -/
def ShowsGroup (srv : GraphServer) (store : Store) (events : List EventEnvelope) (name : String) : Prop :=
  let groupIri := srv.iris.group name
  (∀ accept, (handleGroup srv store accept name).status = 404 ↔ ¬ IsA store (.named ⟨groupIri⟩) "Group") ∧
    (IsA store (.named ⟨groupIri⟩) "Group" → ∃ view, groupAnswer srv store name = .shown view ∧
      view.iri = groupIri ∧ view.name = name ∧
      (∀ role, role ∈ view.roles ↔ Has store groupIri "hasRole" (node role)) ∧
      ∀ member, member ∈ view.members ↔ LastAdded events groupIri member)

/-- No solution of the query for the roles of an IRI is a quoted triple. -/
def NoQuotedRole (srv : GraphServer) (store : Store) (groupIri : String) : Prop :=
  ∀ row ∈ rowsOf srv store (groupValueQuery groupIri "hasRole" "role"), ∀ text,
    row.get "role" ≠ some (.triple text)

/-! ## What the handlers read -/

section Read

variable {checks : TermChecks} {srv : GraphServer} {store : Store} {name : String}

/-- The solutions of the query for groups are the groups, each with its descriptions. -/
theorem exists_groupRows (hreads : ReadsGroupQueries checks srv) (store : Store) : ∃ rows : List Row,
    executeQuery srv store groupsQuery = .ok (rows.map (rowToJson ["group", "desc"])) ∧
    (∀ row ∈ rows, ∃ x, IsA store x "Group" ∧ row.get "group" = some x.toTerm) ∧
    ∀ x, IsA store x "Group" → ∃ row ∈ rows, row.get "group" = some x.toTerm := by
  set triples := triplesIn store .default with htriples
  set typed := triples.filterMap fun t => if t.predicate = ⟨rdfType⟩ ∧ t.object = picloudTerm "Group" then
    extend [] "group" t.subject.toTerm else none with htyped
  set described := triples.filterMap fun t => if t.predicate = ⟨pc "description"⟩ then
    merge [] [("group", t.subject.toTerm), ("desc", t.object)] else none with hdescribed
  -- the solutions for the type alone
  have hmem : ∀ row, row ∈ typed ↔ ∃ x, IsA store x "Group" ∧ row = [("group", x.toTerm)] := by
    intro row
    rw [htyped, List.mem_filterMap]
    constructor
    · rintro ⟨t, ht, hrow⟩
      split_ifs at hrow with hgroup
      refine ⟨t.subject, ?_, (Option.some.inj hrow).symm⟩
      have hquad := mem_triplesIn.mp ht
      rwa [Triple.inGraph, hgroup.1, hgroup.2] at hquad
    · rintro ⟨x, hx, rfl⟩
      exact ⟨⟨x, ⟨rdfType⟩, picloudTerm "Group"⟩, mem_triplesIn.mpr hx, if_pos ⟨rfl, rfl⟩⟩
  have heval : (typedGroups.optional describedGroups).eval (datasetOf store none) triples [] =
      .ok (typed.flatMap fun a => if described.filterMap (merge a) = [] then [a]
        else described.filterMap (merge a)) := GraphPattern.eval_optional rfl rfl
  refine ⟨typed.flatMap fun a => if described.filterMap (merge a) = [] then [a]
    else described.filterMap (merge a), ?_, fun row hrow => ?_, fun x hx => ?_⟩
  · exact executeQuery_rows hreads.groups heval
  · obtain ⟨a, ha, hrow⟩ := List.mem_flatMap.mp hrow
    obtain ⟨x, hx, rfl⟩ := (hmem a).mp ha
    refine ⟨x, hx, ?_⟩
    split_ifs at hrow
    · rw [List.mem_singleton.mp hrow]
      rfl
    · obtain ⟨b, -, hmerge⟩ := List.mem_filterMap.mp hrow
      exact get_merge_of_get rfl hmerge
  · have hfirst := (hmem [("group", x.toTerm)]).mpr ⟨x, hx, rfl⟩
    by_cases hnone : described.filterMap (merge [("group", x.toTerm)]) = []
    · refine ⟨[("group", x.toTerm)], List.mem_flatMap.mpr ⟨_, hfirst, ?_⟩, rfl⟩
      rw [if_pos hnone]
      exact List.mem_singleton_self _
    · obtain ⟨row, hrow⟩ := List.exists_mem_of_ne_nil _ hnone
      obtain ⟨b, -, hmerge⟩ := List.mem_filterMap.mp hrow
      refine ⟨row, List.mem_flatMap.mpr ⟨_, hfirst, ?_⟩, get_merge_of_get rfl hmerge⟩
      rw [if_neg hnone]
      exact hrow

/-- What a list entry shows of a group. -/
def shownSubject : Subject → String
  | .triple text => text
  | _ => ""

/-- The list has an entry for each group, which shows its IRI only if that is a quoted triple. -/
theorem groupsAnswer_eq (hreads : ReadsGroupQueries checks srv) (hprojector : srv.hasProjector = true)
    (store : Store) :
    ∃ groups, groupsAnswer srv store = .listed groups ∧
      ∀ iri, iri ∈ groups.map GroupEntry.iri ↔ ∃ x, IsA store x "Group" ∧ iri = shownSubject x := by
  obtain ⟨rows, hquery, honly, hall⟩ := exists_groupRows hreads store
  have hshown : ∀ row : Row, ∀ x : Subject, row.get "group" = some x.toTerm →
      (groupEntry (rowToJson ["group", "desc"] row)).iri = shownSubject x := by
    intro row x hrow
    rw [groupEntry, groupBindingText, shown_of_rowToJson (by simp), shownText, hrow]
    cases x <;> rfl
  refine ⟨(rows.map (rowToJson ["group", "desc"])).map groupEntry, ?_, fun iri => ?_⟩
  · rw [groupsAnswer, if_pos hprojector, hquery]
  · simp only [List.mem_map, exists_exists_and_eq_and]
    constructor
    · rintro ⟨row, hrow, rfl⟩
      obtain ⟨x, hx, hget⟩ := honly row hrow
      exact ⟨x, hx, hshown row x hget⟩
    · rintro ⟨x, hx, rfl⟩
      obtain ⟨row, hrow, hget⟩ := hall x hx
      exact ⟨row, hrow, hshown row x hget⟩

/-- The list is right exactly when there is no group. -/
theorem listsGroups_iff (hreads : ReadsGroupQueries checks srv) (hprojector : srv.hasProjector = true)
    (hempty : checks.iri "" ≠ none) (hvalid : ∀ iri, IsA store (.named ⟨iri⟩) "Group" → checks.iri iri = none) :
    ListsGroups srv store ↔ ∀ x, ¬ IsA store x "Group" := by
  obtain ⟨groups, hanswer, hgroups⟩ := groupsAnswer_eq hreads hprojector store
  constructor
  · rintro ⟨groups', hanswer', hlists⟩ x hx
    obtain rfl : groups = groups' := GroupAnswer.listed.inj (hanswer.symm.trans hanswer')
    have hnamed : ∀ iri, ¬ IsA store (.named ⟨iri⟩) "Group" := by
      intro iri hiri
      have hblank := (hlists "").mp ((hgroups "").mpr ⟨_, hiri, rfl⟩)
      exact hempty (hvalid "" hblank)
    exact hnamed _ ((hlists (shownSubject x)).mp ((hgroups _).mpr ⟨x, hx, rfl⟩))
  · intro hnone
    refine ⟨groups, hanswer, fun iri => ?_⟩
    rw [hgroups]
    exact ⟨fun ⟨x, hx, _⟩ => absurd hx (hnone x), fun hx => absurd hx (hnone _)⟩

/-- Of the roles only quoted triples are read. -/
theorem queriedRoles_eq (hreads : ReadsGroupQueries checks srv) (iri : String) :
    queriedTexts srv store (groupValueQuery iri "hasRole" "role") "role" =
      (rowsOf srv store (groupValueQuery iri "hasRole" "role")).filterMap fun row => shownText row "role" := by
  rw [queriedTexts]
  rcases @executeQuery_cases srv store _ _ (hreads.selects iri) with
    ⟨e, hquery, hrows⟩ | ⟨names, hnames, hquery⟩
  · rw [hquery, hrows]
    rfl
  · rw [hquery]
    dsimp only
    rw [List.filterMap_map]
    exact List.filterMap_congr fun row _ => shown_of_rowToJson (hnames (by simp)) row

theorem queriedRoles_eq_nil_iff (hreads : ReadsGroupQueries checks srv) (iri : String) :
    queriedTexts srv store (groupValueQuery iri "hasRole" "role") "role" = [] ↔ NoQuotedRole srv store iri := by
  rw [queriedRoles_eq hreads, List.filterMap_eq_nil_iff, NoQuotedRole]
  refine forall₂_congr fun row _ => ?_
  constructor
  · intro hnone text hget
    rw [shownText, hget] at hnone
    cases hnone
  · intro hnone
    rw [Option.eq_none_iff_forall_not_mem]
    exact fun text htext => hnone text (shownText_eq_some htext)

/-- The roles of an IRI that are IRIs are no quoted triples. -/
theorem noQuotedRole_of_valid (hreads : ReadsGroupQueries checks srv) {iri : String} (hiri : checks.iri iri = none)
    (hroles : ∀ o, Has store iri "hasRole" o → ∃ role, o = node role) : NoQuotedRole srv store iri := by
  intro row hrow text hget
  rw [rowsOf, runQuery, hreads.roles iri hiri] at hrow
  obtain ⟨t, ht, hextend⟩ := List.mem_filterMap.mp hrow
  split_ifs at hextend with hrole
  obtain rfl := Option.some.inj hextend
  have hquad := mem_triplesIn.mp ht
  rw [Triple.inGraph, hrole.1, hrole.2] at hquad
  obtain ⟨role, hobject⟩ := hroles t.object hquad
  rw [hobject] at hget
  cases hget

/-- No group is found as long as no role is a quoted triple. -/
theorem status_eq_iff (hreads : ReadsGroupQueries checks srv) (hprojector : srv.hasProjector = true)
    (accept : Option String) : (handleGroup srv store accept name).status = 404 ↔
      NoQuotedRole srv store (srv.iris.group name) := by
  rw [status_handleGroup, groupAnswer]
  dsimp only
  rw [if_pos hprojector, ← queriedRoles_eq_nil_iff hreads]
  split_ifs with hroles
  · simpa using List.isEmpty_iff.mp hroles
  · simpa using fun hnil => hroles (List.isEmpty_iff.mpr hnil)

end Read

/-! ## The exact condition -/

section Exact

variable {env : ProjectorEnv} {srv : GraphServer} {p : Projector} {events : List EventEnvelope}

/-- **The list of groups is right exactly when no group appears, and a group is shown rightly exactly when it does
not appear and no role of it is a quoted triple, which is sure for a name that makes an IRI.** -/
theorem groupEndpoints_iff (hreads : ReadsGroupQueries env.checks srv) (hprojector : srv.hasProjector = true)
    (hempty : env.checks.iri "" ≠ none) (hevents : ∀ e ∈ events, MembershipChange env.checks e)
    (hstart : GroupGraph env.checks p.store) :
    (ListsGroups srv (p.projectEach env events).store ↔ ∀ x, ¬ GroupAppears p.store events x) ∧
      ∀ name, ShowsGroup srv (p.projectEach env events).store events name ↔
        ¬ GroupAppears p.store events (.named ⟨srv.iris.group name⟩) ∧
          (env.checks.iri (srv.iris.group name) = none ∨
            NoQuotedRole srv (p.projectEach env events).store (srv.iris.group name)) := by
  rw [Projector.store_projectEach]
  obtain ⟨hgroups, -, hroles⟩ := graph_of_memberships hevents hstart
  set store := events.foldl (projected env) p.store
  have hvalid : ∀ iri, IsA store (.named ⟨iri⟩) "Group" → env.checks.iri iri = none := by
    intro iri hiri
    rcases (hgroups _).mp hiri with hfirst | ⟨e, he, -, heq⟩
    · exact hstart.groups iri hfirst
    · obtain rfl : iri = changedGroup e := by simpa using heq
      exact (hevents e he).group
  have hquoted : ∀ iri, env.checks.iri iri = none → NoQuotedRole srv store iri :=
    fun iri hiri => noQuotedRole_of_valid hreads hiri fun o ho => hstart.roles iri o ((hroles iri o).mp ho)
  refine ⟨?_, fun name => ?_⟩
  · rw [listsGroups_iff hreads hprojector hempty hvalid]
    exact forall_congr' fun x => not_congr (hgroups x)
  · rw [← hgroups, or_iff_right_of_imp (hquoted _)]
    constructor
    · rintro ⟨hstatus, -⟩
      by_cases hgroup : IsA store (.named ⟨srv.iris.group name⟩) "Group"
      · -- a group is an IRI, so it is not found
        have hfound := (status_eq_iff hreads hprojector none).mpr (hquoted _ (hvalid _ hgroup))
        exact absurd hgroup ((hstatus none).mp hfound)
      · exact ⟨hgroup, (status_eq_iff hreads hprojector none).mp ((hstatus none).mpr hgroup)⟩
    · rintro ⟨hgroup, hnone⟩
      refine ⟨fun accept => ?_, fun h => absurd h hgroup⟩
      exact iff_of_true ((status_eq_iff hreads hprojector accept).mpr hnone) hgroup

end Exact

/-! ## A group with a role and a member -/

/-- The sample environment, where the empty text is no IRI. -/
def schemeEnv : ProjectorEnv :=
  { plainEnv with
    checks := ⟨fun text => if text = "" then some "No scheme found in an absolute IRI" else none, fun _ => none⟩
    iri_pc := by
      intro name _
      show (if pc name = "" then some "No scheme found in an absolute IRI" else none) = none
      refine if_neg fun h => ?_
      have hlist := congrArg String.toList h
      rw [toList_pc] at hlist
      exact absurd (List.append_eq_nil_iff.mp hlist).1 (by decide)
    iri_rdfType := by decide }

/-- The text in front of the IRI in a query for roles. -/
def roleQueryHead : List Char := "SELECT ?role WHERE \x7b <".toList

/-- The text behind it. -/
def roleQueryTail : List Char := "> <https://picloud.local/ontology#hasRole> ?role \x7d".toList

/-- What a text has between its head and its tail. -/
def textBetween (head tail text : List Char) : Option (List Char) :=
  if head <+: text ∧ tail <:+ text then some ((text.drop head.length).rdrop tail.length) else none

theorem textBetween_append (head middle tail : List Char) :
    textBetween head tail (head ++ (middle ++ tail)) = some middle := by
  rw [textBetween, if_pos ⟨List.prefix_append _ _, (List.suffix_append _ _).trans (List.suffix_append _ _)⟩,
    List.drop_left, List.rdrop_append_length]

/-- Reads the query for groups and the queries for roles. -/
def parseGroupQuery (text : String) : Except String Query :=
  if text = groupsQuery then
    .ok ⟨none, typedGroups.optional describedGroups, .select ["group", "desc"]⟩
  else match textBetween roleQueryHead roleQueryTail text.toList with
    | some iri => .ok ⟨none, groupValues (String.ofList iri) "hasRole" "role", .select ["role"]⟩
    | none => .error "no sample"

/-- A server that reads them. -/
def groupServer : GraphServer := { shopServer with parse := parseGroupQuery }

theorem toList_roleQuery (iri : String) :
    (groupValueQuery iri "hasRole" "role").toList = roleQueryHead ++ (iri.toList ++ roleQueryTail) := by
  unfold groupValueQuery pc
  simp only [String.toList_append, List.append_assoc]
  rfl

theorem parse_roleQuery (iri : String) : parseGroupQuery (groupValueQuery iri "hasRole" "role") =
    .ok ⟨none, groupValues iri "hasRole" "role", .select ["role"]⟩ := by
  have hother : groupValueQuery iri "hasRole" "role" ≠ groupsQuery := by
    intro heq
    have hrole : (groupValueQuery iri "hasRole" "role").toList[8]? = some 'r' :=
      toList_roleQuery iri ▸ getElem?_toList_append rfl rfl
    have hgroups : groupsQuery.toList[8]? = some 'g' := String.toList_append ▸ getElem?_toList_append rfl rfl
    rw [heq, hgroups] at hrole
    exact absurd hrole (by decide)
  rw [parseGroupQuery, if_neg hother, toList_roleQuery, textBetween_append]
  dsimp only
  rw [String.ofList_toList]

theorem parse_groupServer : groupServer.parse = parseGroupQuery := rfl

theorem readsGroupQueries : ReadsGroupQueries schemeEnv.checks groupServer where
  groups := by rw [parse_groupServer, parseGroupQuery, if_pos rfl]
  roles iri _ := by rw [parse_groupServer, parse_roleQuery]
  selects iri q hq := by
    rw [parse_groupServer] at hq
    obtain rfl := Except.ok.inj ((parse_roleQuery iri).symm.trans hq)
    exact ⟨_, rfl, List.Subset.refl _⟩

/-- The group of the samples. -/
def adminsIri : String := "https://picloud.local/groups/admins"

/-- A change of a member of the group. -/
def memberChanged (action : String) : EventEnvelope :=
  sampleEvent "GroupMembershipChanged" none [("group_iri", .string adminsIri),
    ("member_iri", .string "https://picloud.local/users/ada"), ("action", .string action)]

/-- A graph with a role of the group. -/
def adminsGraph : Store := [quad adminsIri (pc "hasRole") (node "https://picloud.local/roles/admin") .default]

theorem groupGraph_admins : GroupGraph schemeEnv.checks adminsGraph where
  groups iri h := by simp [IsA, adminsGraph, quad] at h
  roles iri o h := by
    simp only [Has, adminsGraph, quad, List.mem_singleton, Quad.mk.injEq] at h
    exact ⟨_, h.2.2.1⟩
  members iri o := by simp [Has, adminsGraph, quad]

theorem membershipChange_removed : MembershipChange schemeEnv.checks (memberChanged "removed") :=
  ⟨rfl, by decide, by decide⟩

/-- The graph after a change. -/
def adminsAfter (action : String) : Store :=
  ((⟨adminsGraph, 0⟩ : Projector).projectEach schemeEnv [memberChanged action]).store

/-- After a removal no group appears, and there is nothing to list. -/
theorem groupEndpoints_admins :
    ListsGroups groupServer (adminsAfter "removed") ∧
      ∀ name, ShowsGroup groupServer (adminsAfter "removed") [memberChanged "removed"] name := by
  obtain ⟨hlists, hshows⟩ := groupEndpoints_iff (p := (⟨adminsGraph, 0⟩ : Projector)) readsGroupQueries rfl
    (by decide) (List.forall_mem_singleton.mpr membershipChange_removed) groupGraph_admins
  have hnone : ∀ x, ¬ GroupAppears adminsGraph [memberChanged "removed"] x := by
    rintro x (h | ⟨e, he, hadded, -⟩)
    · simp [IsA, adminsGraph, quad] at h
    · rw [List.mem_singleton.mp he] at hadded
      exact absurd hadded (by decide)
  refine ⟨hlists.mpr hnone, fun name => (hshows name).mpr ⟨hnone _, Or.inl ?_⟩⟩
  show (if shopIris.group name = "" then some "No scheme found in an absolute IRI" else none) = none
  refine if_neg fun h => ?_
  have hlist := congrArg (fun text => text.toList.head?) h
  simp [IriBuilder.group] at hlist

/-- A group with a role and a member is listed with an empty IRI, and is not found. -/
theorem not_showsGroup_admins :
    groupsAnswer groupServer (adminsAfter "added") = .listed [⟨"", none⟩] ∧
      groupAnswer groupServer (adminsAfter "added") "admins" = .notFound "admins" ∧
      ¬ ListsGroups groupServer (adminsAfter "added") ∧
      ¬ ShowsGroup groupServer (adminsAfter "added") [memberChanged "added"] "admins" := by
  have hstore : adminsAfter "added" =
      adminsGraph ++ [groupQuad (memberChanged "added"), membershipQuad (memberChanged "added")] := by
    rw [adminsAfter, Projector.store_projectEach]
    decide +kernel
  have hadmins : groupServer.iris.group "admins" = adminsIri := by decide +kernel
  have hchanged : changedGroup (memberChanged "added") = adminsIri := by decide
  have hgroup : IsA (adminsAfter "added") (.named ⟨adminsIri⟩) "Group" := by
    unfold IsA
    rw [hstore, List.mem_append, List.mem_cons, groupQuad, hchanged]
    exact Or.inr (Or.inl rfl)
  have hlisted : groupsAnswer groupServer (adminsAfter "added") = .listed [⟨"", none⟩] := by
    have hprojector : groupServer.hasProjector = true := rfl
    rw [hstore, groupsAnswer, if_pos hprojector, executeQuery, runQuery, readsGroupQueries.groups]
    rfl
  have hmissing : ∀ accept, (handleGroup groupServer (adminsAfter "added") accept "admins").status = 404 := by
    intro accept
    refine (status_eq_iff readsGroupQueries rfl accept).mpr (noQuotedRole_of_valid readsGroupQueries ?_ ?_)
    · rw [hadmins]
      decide
    · rw [hadmins]
      intro o ho
      unfold Has at ho
      rw [hstore] at ho
      simp only [List.mem_append, List.mem_cons, List.not_mem_nil, or_false] at ho
      rcases ho with ho | ho | ho
      · exact groupGraph_admins.roles _ o ho
      · simp [groupQuad, quad] at ho
      · simp [membershipQuad, quad] at ho
  refine ⟨hlisted, (status_handleGroup _ _ none _).mp (hmissing none), ?_, ?_⟩
  · rintro ⟨groups, hanswer, hlists⟩
    obtain rfl : [⟨"", none⟩] = groups := GroupAnswer.listed.inj (hlisted.symm.trans hanswer)
    have hiri := (hlists adminsIri).mpr hgroup
    exact absurd hiri (by decide)
  · rintro ⟨hstatus, -⟩
    refine (hstatus none).mp (hmissing none) ?_
    rw [hadmins]
    exact hgroup

end Picloud
