import Picloud.Iam.Groups
import Mathlib.Logic.Relation

/-!
# Role resolution

Reference: `resolve_roles` of `picloud-iam/src/implementation.rs`.

The resolver asks the injected query function for the superclasses of the direct roles. The roles that
come from groups are taken as they are: what they inherit is found only where it is found in another
way (`roles_resolved_iff`).
-/

namespace Picloud

/-! ## Queries -/

/-- A JSON value in a query result, as far as it is read. -/
inductive BindingValue where
  | text (value : String)
  | other
deriving DecidableEq

/-- A solution: its values by the names of the variables. -/
abbrev QueryBinding := String → Option BindingValue

/-- `SparqlQueryFn`. -/
abbrev SparqlQueryFn := String → Except String (List QueryBinding)

/-- The texts that the solutions have for a variable. -/
def bindingTexts (bindings : List QueryBinding) (variableName : String) : List String :=
  bindings.filterMap fun binding =>
    match binding variableName with
    | some (.text value) => some value
    | _ => none

/-- The query for the superclasses of a role. -/
def superclassQuery (role : String) : String :=
  "\n                    PREFIX rdfs: <http://www.w3.org/2000/01/rdf-schema#>" ++
  ("\n                    SELECT ?super WHERE \x7b" ++
  ("\n                        <" ++ role ++ "> rdfs:subClassOf* ?super ." ++
  "\n                        FILTER(?super != <" ++ role ++ ">)" ++
  ("\n                    \x7d" ++
  "\n                    ")))

/-- The roles of the permission query, as its text lists them. -/
def rolesFilter (roles : List String) : String :=
  " ".intercalate (roles.map fun r => "<" ++ r ++ ">")

/-- The query for the permissions of the roles. -/
def permissionQuery (roles : List String) : String :=
  "\n                    PREFIX pc: <https://picloud.local/ontology#>" ++
  ("\n                    SELECT ?permission WHERE \x7b" ++
  ("\n                        VALUES ?role \x7b " ++ rolesFilter roles ++ " \x7d" ++
  "\n                        ?role pc:hasPermission ?permission ." ++
  ("\n                    \x7d" ++
  "\n                    ")))

/-! ## The resolver -/

/-- `ResolvedTokenClaims`. -/
structure ResolvedTokenClaims where
  subject : String
  audience : String
  issuer : String
  scopes : List String
  roles : List String
  permissions : List String
  custom : List (String × String)
  actor : Option String

/-- The superclasses that the query finds, none when it fails. -/
def superRoles (query : SparqlQueryFn) (role : String) : List String :=
  match query (superclassQuery role) with
  | .ok bindings => bindingTexts bindings "super"
  | .error _ => []

/-- The permissions that the query finds, none when it fails. -/
def permissionsOf (query : SparqlQueryFn) (roles : List String) : List String :=
  if rolesFilter roles = "" then []
  else match query (permissionQuery roles) with
    | .ok bindings => bindingTexts bindings "permission"
    | .error _ => []

namespace LocalIdentityProvider

variable (prov : LocalIdentityProvider) (sparqlQuery : Option SparqlQueryFn)

/-- The set of the roles: the direct ones, those from groups, and what the direct ones inherit. -/
def allRoles (identityIri : String) : List String :=
  let directRoles := (prov.identities identityIri).getD []
  let merged := mergeRoles (mergeRoles [] directRoles) (prov.rolesFromGroups identityIri)
  match sparqlQuery with
  | none => merged
  | some query => directRoles.foldl (fun roles role => mergeRoles roles (superRoles query role)) merged

/-- `resolve_roles`. A hash set lists its elements in an order of its own. -/
def resolveRoles (env : IamEnv) (order : List String → List String) (identityIri : ResourceIri)
    (product : String) : ResolvedTokenClaims :=
  let roles := order (prov.allRoles sparqlQuery identityIri.value)
  { subject := identityIri.value
    audience := env.iris.product product
    issuer := "https://" ++ env.iris.domain
    scopes := []
    roles := roles
    permissions := match sparqlQuery with
      | none => []
      | some query => permissionsOf query roles
    custom := []
    actor := none }

end LocalIdentityProvider

/-! ## What is claimed, and the condition -/

/-- The roles that are reached from the given ones through `rdfs:subClassOf`. -/
def InheritedFrom (sub : String → String → Prop) (base : String → Prop) (role : String) : Prop :=
  ∃ r, base r ∧ Relation.ReflTransGen sub r role

/-- What is relied on of the injected query function, for the roles that it knows: it answers the two
queries from the subclass relation and the permissions of the roles. -/
structure AnswersRoles (query : SparqlQueryFn) (known : String → Prop)
    (sub attached : String → String → Prop) : Prop where
  closed : ∀ r s, known r → sub r s → known s
  superclasses : ∀ role, known role → ∃ bindings, query (superclassQuery role) = .ok bindings ∧
    ∀ s, s ∈ bindingTexts bindings "super" ↔ Relation.ReflTransGen sub role s ∧ s ≠ role
  permissions : ∀ roles, roles ≠ [] → (∀ r ∈ roles, known r) →
    ∃ bindings, query (permissionQuery roles) = .ok bindings ∧
      ∀ p, p ∈ bindingTexts bindings "permission" ↔ ∃ r ∈ roles, attached r p

/-- The roles are the direct ones as they are, and each other role that a group grants once. -/
def RolesOfToken (directRoles : List String) (granted : String → Prop) (roles : List String) : Prop :=
  (∀ role ∈ directRoles, roles.count role = directRoles.count role) ∧
  ∀ role, role ∉ directRoles → roles.count role ≤ 1 ∧ (role ∈ roles ↔ granted role)

section

variable (env : IamEnv) (prov : LocalIdentityProvider) (query : SparqlQueryFn)
  (order : List String → List String) (sub attached : String → String → Prop)
  (granted : String → Prop) (iri : ResourceIri)

/-- The identity has the role itself, or a group grants it. -/
def LocalIdentityProvider.Holds (role : String) : Prop :=
  role ∈ (prov.identities iri.value).getD [] ∨ granted role

/-- The resolved roles are what the identity holds and inherits, and the permissions are theirs. -/
structure RolesResolved : Prop where
  roles : ∀ product role, role ∈ (prov.resolveRoles (some query) env order iri product).roles ↔
    InheritedFrom sub (prov.Holds granted iri) role
  permissions : ∀ product p,
    p ∈ (prov.resolveRoles (some query) env order iri product).permissions ↔
      ∃ role, InheritedFrom sub (prov.Holds granted iri) role ∧ attached role p

/-- The issued tokens have the roles that the identity holds. -/
structure RolesIssued : Prop where
  issued : ∀ now product, RolesOfToken ((prov.identities iri.value).getD []) granted
    (prov.issueToken env now iri product).claims.roles
  issuedWithAudience : ∀ now audience scopes,
    RolesOfToken ((prov.identities iri.value).getD []) granted
      (prov.issueTokenWithAudience env now iri audience scopes).claims.roles

/-- What a granted role inherits is held, or inherited from a direct role. -/
def GrantedRolesCovered : Prop :=
  ∀ group role, granted group → Relation.ReflTransGen sub group role →
    prov.Holds granted iri role ∨
      InheritedFrom sub (· ∈ (prov.identities iri.value).getD []) role

end

/-! ## The resolved roles -/

namespace LocalIdentityProvider

variable {prov : LocalIdentityProvider} {query : SparqlQueryFn} {known : String → Prop}
  {sub attached : String → String → Prop} {granted : String → Prop} {iri : ResourceIri}

variable {s : String} {roles : List String}

/-- The superclasses of a known role, with the role itself, are what it inherits. -/
theorem mem_superRoles (hquery : AnswersRoles query known sub attached) {role : String}
    (hrole : known role) :
    s ∈ superRoles query role ↔ Relation.ReflTransGen sub role s ∧ s ≠ role := by
  obtain ⟨bindings, hok, hmem⟩ := hquery.superclasses role hrole
  rw [superRoles, hok]
  exact hmem s

theorem known_of_inherits (hquery : AnswersRoles query known sub attached) {r : String}
    (hr : known r) (h : Relation.ReflTransGen sub r s) : known s := by
  induction h with
  | refl => exact hr
  | tail _ hstep ih => exact hquery.closed _ _ ih hstep

theorem mem_foldl_mergeRoles {f : String → List String} {base : List String} :
    s ∈ roles.foldl (fun acc role => mergeRoles acc (f role)) base ↔
      s ∈ base ∨ ∃ role ∈ roles, s ∈ f role := by
  induction roles generalizing base with
  | nil => simp
  | cons role roles ih =>
    rw [List.foldl_cons, ih, mem_mergeRoles]
    simp [or_assoc]

/-- The set of the roles holds what the identity holds, and what its direct roles inherit. -/
theorem mem_allRoles (hquery : AnswersRoles query known sub attached)
    (hgranted : ∀ role, role ∈ prov.rolesFromGroups iri.value ↔ granted role)
    (hknown : ∀ role, prov.Holds granted iri role → known role) :
    s ∈ prov.allRoles (some query) iri.value ↔ prov.Holds granted iri s ∨
      InheritedFrom sub (· ∈ (prov.identities iri.value).getD []) s := by
  rw [allRoles, mem_foldl_mergeRoles, mem_mergeRoles, mem_mergeRoles, hgranted]
  constructor
  · rintro (((hnil | hdirect) | hgroup) | ⟨role, hrole, hs⟩)
    · cases hnil
    · exact Or.inl (Or.inl hdirect)
    · exact Or.inl (Or.inr hgroup)
    · have hknownRole := hknown role (Or.inl hrole)
      exact Or.inr ⟨role, hrole, ((mem_superRoles hquery hknownRole).mp hs).1⟩
  · rintro ((hdirect | hgroup) | ⟨role, hrole, hpath⟩)
    · exact Or.inl (Or.inl (Or.inr hdirect))
    · exact Or.inl (Or.inr hgroup)
    · by_cases hself : s = role
      · exact Or.inl (Or.inl (Or.inr (hself ▸ hrole)))
      · have hknownRole := hknown role (Or.inl hrole)
        exact Or.inr ⟨role, hrole, (mem_superRoles hquery hknownRole).mpr ⟨hpath, hself⟩⟩

/-- The text that lists roles is empty only when there are none. -/
theorem rolesFilter_eq_empty : rolesFilter roles = "" ↔ roles = [] := by
  constructor
  · intro h
    have htexts := congrArg String.toList h
    cases roles with
    | nil => rfl
    | cons r roles =>
      cases roles with
      | nil => simp [rolesFilter, String.intercalate_singleton] at htexts
      | cons r' roles => simp [rolesFilter, String.intercalate_cons_cons] at htexts
  · rintro rfl
    rfl

theorem mem_permissionsOf (hquery : AnswersRoles query known sub attached)
    (hknown : ∀ r ∈ roles, known r) {p : String} :
    p ∈ permissionsOf query roles ↔ ∃ r ∈ roles, attached r p := by
  rw [permissionsOf]
  by_cases hroles : roles = []
  · rw [if_pos (rolesFilter_eq_empty.mpr hroles)]
    simp [hroles]
  · rw [if_neg (mt rolesFilter_eq_empty.mp hroles)]
    obtain ⟨bindings, hok, hmem⟩ := hquery.permissions roles hroles hknown
    rw [hok]
    exact hmem p

/-- The roles of an issued token. -/
theorem rolesOfToken_merge {directRoles : List String} {groupRoles : List String}
    (hgranted : ∀ role, role ∈ groupRoles ↔ granted role) :
    RolesOfToken directRoles granted (mergeRoles directRoles groupRoles) := by
  refine ⟨fun role hrole => ?_, fun role hrole => ⟨?_, ?_⟩⟩
  · rw [count_mergeRoles, if_pos hrole]
  · rw [count_mergeRoles, if_neg hrole]
    split_ifs <;> omega
  · rw [mem_mergeRoles, hgranted, or_iff_right hrole]

end LocalIdentityProvider

/-! ## Every source of roles -/

/-- **Role resolution covers every source of roles** exactly when what the groups' roles inherit is held
or inherited otherwise. The issued tokens have the roles that the identity holds after the group operations
in any case. -/
theorem roles_resolved_iff {query : SparqlQueryFn} {known : String → Prop}
    {sub attached : String → String → Prop} (hquery : AnswersRoles query known sub attached)
    {order : List String → List String} (horder : ∀ roles, (order roles).Perm roles)
    (env : IamEnv) (start : GroupStore) (calls : List GroupCall)
    (listing : (calls.foldl GroupStore.run start).Listing) {prov : LocalIdentityProvider}
    (hgroups : prov.groups = listing.values) {iri : ResourceIri}
    (hknown : ∀ role, prov.Holds ((calls.foldl GroupView.after start.view).Grants iri.value) iri role →
      known role) :
    RolesIssued env prov ((calls.foldl GroupView.after start.view).Grants iri.value) iri ∧
    (RolesResolved env prov query order sub attached
        ((calls.foldl GroupView.after start.view).Grants iri.value) iri ↔
      GrantedRolesCovered prov sub ((calls.foldl GroupView.after start.view).Grants iri.value)
        iri) := by
  have hgranted : ∀ role, role ∈ prov.rolesFromGroups iri.value ↔
      (calls.foldl GroupView.after start.view).Grants iri.value role := by
    intro role
    rw [← GroupStore.view_of_run]
    exact LocalIdentityProvider.mem_rolesFromGroups_of_listing hgroups
  generalize (calls.foldl GroupView.after start.view).Grants iri.value = granted at *
  have hall : ∀ product role,
      role ∈ (prov.resolveRoles (some query) env order iri product).roles ↔
        prov.Holds granted iri role ∨
          InheritedFrom sub (· ∈ (prov.identities iri.value).getD []) role := by
    intro product role
    rw [← LocalIdentityProvider.mem_allRoles hquery hgranted hknown]
    exact (horder _).mem_iff
  refine ⟨⟨fun now product => LocalIdentityProvider.rolesOfToken_merge hgranted,
    fun now audience scopes => LocalIdentityProvider.rolesOfToken_merge hgranted⟩, ?_, ?_⟩
  · intro h group role hgroup hpath
    exact (hall "" role).mp ((h.roles "" role).mpr ⟨group, Or.inr hgroup, hpath⟩)
  · intro hcovered
    have hroles : ∀ product role,
        role ∈ (prov.resolveRoles (some query) env order iri product).roles ↔
          InheritedFrom sub (prov.Holds granted iri) role := by
      intro product role
      rw [hall]
      constructor
      · rintro (hholds | ⟨r, hr, hpath⟩)
        · exact ⟨role, hholds, .refl⟩
        · exact ⟨r, Or.inl hr, hpath⟩
      · rintro ⟨r, hdirect | hgroup, hpath⟩
        · exact Or.inr ⟨r, hdirect, hpath⟩
        · exact hcovered r role hgroup hpath
    refine ⟨hroles, fun product p => ?_⟩
    have hclosed : ∀ r ∈ (prov.resolveRoles (some query) env order iri product).roles, known r := by
      intro r hr
      obtain ⟨base, hbase, hpath⟩ := (hroles product r).mp hr
      exact LocalIdentityProvider.known_of_inherits hquery (hknown base hbase) hpath
    refine (LocalIdentityProvider.mem_permissionsOf hquery hclosed).trans ?_
    exact exists_congr fun r => and_congr_left fun _ => hroles product r

/-! ## A role and its superclass -/

/-- A lead is one of the staff. -/
def leadSub (r s : String) : Prop := r = "urn:lead" ∧ s = "urn:staff"

/-- Everybody may read. -/
def readsAll (_ p : String) : Prop := p = "read"

/-- A query function that knows the two roles. -/
def leadQuery : SparqlQueryFn := fun text =>
  if text = superclassQuery "urn:lead" then
    .ok [fun name => if name = "super" then some (.text "urn:staff") else none]
  else if text = superclassQuery "urn:staff" then .ok []
  else .ok [fun name => if name = "permission" then some (.text "read") else none]

/-- A member of a group whose role is the lead. -/
def leadCalls : List GroupCall :=
  [.createGroup ⟨"urn:g"⟩ ["urn:lead"], .addGroupMember ⟨"urn:g"⟩ ⟨"urn:u"⟩]

/-- A character of a text stays where it is when more is appended. -/
theorem toList_append_of_some {a b : String} {i : ℕ} {c : Char} (h : a.toList[i]? = some c) :
    (a ++ b).toList[i]? = some c := by
  rw [String.toList_append, List.getElem?_append_left (List.getElem?_eq_some_iff.mp h).1, h]

/-- The two queries differ in their first prefix. -/
theorem permissionQuery_ne (roles : List String) (role : String) :
    permissionQuery roles ≠ superclassQuery role := by
  intro h
  have hpermission : (permissionQuery roles).toList[28]? = some 'p' := by
    unfold permissionQuery
    refine toList_append_of_some ?_
    simp
  have hsuper : (superclassQuery role).toList[28]? = some 'r' := by
    unfold superclassQuery
    refine toList_append_of_some ?_
    simp
  rw [h, hsuper] at hpermission
  exact absurd hpermission (by decide)

theorem inherits_lead {s : String} :
    Relation.ReflTransGen leadSub "urn:lead" s ↔ s = "urn:lead" ∨ s = "urn:staff" := by
  constructor
  · intro h
    induction h with
    | refl => exact Or.inl rfl
    | tail _ hstep _ => exact Or.inr hstep.2
  · rintro (rfl | rfl)
    · exact .refl
    · exact .single ⟨rfl, rfl⟩

theorem inherits_staff {s : String} :
    Relation.ReflTransGen leadSub "urn:staff" s ↔ s = "urn:staff" := by
  constructor
  · intro h
    rcases Relation.ReflTransGen.cases_head h with heq | ⟨r, hstep, -⟩
    · exact heq.symm
    · exact absurd hstep.1 (by decide)
  · rintro rfl
    exact .refl

theorem leadQuery_answers :
    AnswersRoles leadQuery (fun r => r = "urn:lead" ∨ r = "urn:staff") leadSub readsAll where
  closed r s _ hstep := Or.inr hstep.2
  superclasses role hrole := by
    rcases hrole with rfl | rfl
    · refine ⟨_, if_pos rfl, fun s => ?_⟩
      rw [inherits_lead]
      constructor
      · intro hs
        obtain rfl : s = "urn:staff" := List.mem_singleton.mp hs
        exact ⟨Or.inr rfl, by decide⟩
      · rintro ⟨rfl | rfl, hne⟩
        · exact absurd rfl hne
        · exact List.mem_singleton.mpr rfl
    · have hother : superclassQuery "urn:staff" ≠ superclassQuery "urn:lead" := by
        intro h
        have hlength := congrArg String.length h
        unfold superclassQuery at hlength
        simp only [String.length_append] at hlength
        have hstaff : "urn:staff".length = 9 := rfl
        have hlead : "urn:lead".length = 8 := rfl
        omega
      refine ⟨_, (if_neg hother).trans (if_pos rfl), fun s => ?_⟩
      rw [inherits_staff]
      simp [bindingTexts]
  permissions roles hroles _ := by
    refine ⟨_, (if_neg (permissionQuery_ne _ _)).trans (if_neg (permissionQuery_ne _ _)),
      fun p => ?_⟩
    obtain ⟨r, hr⟩ := List.exists_mem_of_ne_nil roles hroles
    constructor
    · intro hp
      exact ⟨r, hr, List.mem_singleton.mp hp⟩
    · rintro ⟨_, _, hp⟩
      exact List.mem_singleton.mpr hp

/-- The listing of the one group. -/
def leadListing : (leadCalls.foldl GroupStore.run fun _ => none).Listing where
  keys := ["urn:g"]
  nodup := List.nodup_singleton _
  mem_keys g := by
    by_cases hg : g = "urn:g"
    · subst hg
      decide
    · simp [leadCalls, GroupStore.run, GroupStore.createGroup, GroupStore.addGroupMember,
        GroupStore.modifyGroup, hg]

/-- The provider with that group, in which the member has the roles itself. -/
def leadProvider (directRoles : List String) : LocalIdentityProvider :=
  .new (fun _ => some directRoles) leadListing.values

/-- The member has the role of its group and nothing else. -/
theorem grants_lead {role : String} :
    (leadCalls.foldl GroupView.after (GroupStore.view fun _ => none)).Grants "urn:u" role ↔
      role = "urn:lead" := by
  rw [← GroupStore.view_of_run]
  have hroles : (leadProvider []).rolesFromGroups "urn:u" = ["urn:lead"] := by decide
  have hgroups : (leadProvider []).groups = leadListing.values := rfl
  rw [← LocalIdentityProvider.mem_rolesFromGroups_of_listing hgroups, hroles, List.mem_singleton]

/-- A lead that has the role itself, and the role of its group. -/
theorem roles_resolved_lead :
    RolesIssued LocalIdentityProvider.sampleIam (leadProvider ["urn:lead"])
      ((leadCalls.foldl GroupView.after (GroupStore.view fun _ => none)).Grants "urn:u") ⟨"urn:u"⟩ ∧
    RolesResolved LocalIdentityProvider.sampleIam (leadProvider ["urn:lead"]) leadQuery id leadSub
      readsAll ((leadCalls.foldl GroupView.after (GroupStore.view fun _ => none)).Grants "urn:u")
      ⟨"urn:u"⟩ := by
  have hknown : ∀ role, (leadProvider ["urn:lead"]).Holds
      ((leadCalls.foldl GroupView.after (GroupStore.view fun _ => none)).Grants "urn:u") ⟨"urn:u"⟩
      role → role = "urn:lead" ∨ role = "urn:staff" := by
    rintro role (hdirect | hgroup)
    · exact Or.inl (List.mem_singleton.mp hdirect)
    · exact Or.inl (grants_lead.mp hgroup)
  obtain ⟨hissued, hresolved⟩ := roles_resolved_iff leadQuery_answers (fun roles => .refl roles)
    LocalIdentityProvider.sampleIam (fun _ => none) leadCalls leadListing rfl hknown
  refine ⟨hissued, hresolved.mpr ?_⟩
  intro group role hgroup hpath
  exact Or.inr ⟨"urn:lead", List.mem_singleton.mpr rfl, grants_lead.mp hgroup ▸ hpath⟩

/-- Without the role of its own the member does not get what the role of its group inherits. -/
theorem not_rolesResolved_group : ¬ ∀ (query : SparqlQueryFn) (known : String → Prop)
    (sub attached : String → String → Prop), AnswersRoles query known sub attached →
    ∀ (env : IamEnv) (calls : List GroupCall)
      (listing : (calls.foldl GroupStore.run fun _ => none).Listing) (prov : LocalIdentityProvider)
      (iri : ResourceIri), prov.groups = listing.values →
    RolesResolved env prov query id sub attached
      ((calls.foldl GroupView.after (GroupStore.view fun _ => none)).Grants iri.value) iri := by
  intro h
  have hresolved := h _ _ _ _ leadQuery_answers LocalIdentityProvider.sampleIam leadCalls leadListing
    (leadProvider []) ⟨"urn:u"⟩ rfl
  have hinherits : InheritedFrom leadSub ((leadProvider []).Holds ((leadCalls.foldl GroupView.after
      (GroupStore.view fun _ => none)).Grants "urn:u") ⟨"urn:u"⟩) "urn:staff" :=
    ⟨"urn:lead", Or.inr (grants_lead.mpr rfl), inherits_lead.mpr (Or.inr rfl)⟩
  have hmem := (hresolved.roles "shop" "urn:staff").mpr hinherits
  revert hmem
  decide

end Picloud
