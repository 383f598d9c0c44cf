import Picloud.Iam.Exchange

/-!
# Groups

Reference: `create_group`, `assign_group_role`, `revoke_group_role`, `add_group_member` and
`remove_group_member` of `picloud-iam/src/implementation.rs`.

`GroupView` is what the groups are for: which group has which role and which member. The operations on
the stored groups follow it in every run (`view_of_run`), and the roles that an identity has through
its groups can be read off it (`mem_rolesFromGroups_of_listing`).
-/

namespace Picloud

/-! ## The stored groups -/

/-- `PiCloudError::ResourceNotFound`. -/
structure GroupNotFound where
  iri : String
deriving DecidableEq

/-- The stored groups by their keys. -/
abbrev GroupStore := String → Option StoredGroup

namespace GroupStore

variable (groups : GroupStore)

/-- `create_group`. A group that exists is replaced, and loses its members. -/
def createGroup (groupIri : ResourceIri) (roles : List String) : GroupStore :=
  Function.update groups groupIri.value (some ⟨roles, []⟩)

/-- Change a group that exists. -/
def modifyGroup (groupIri : ResourceIri) (change : StoredGroup → StoredGroup) :
    Except GroupNotFound Unit × GroupStore :=
  match groups groupIri.value with
  | none => (.error ⟨groupIri.value⟩, groups)
  | some group => (.ok (), Function.update groups groupIri.value (some (change group)))

/-- `assign_group_role`. -/
def assignGroupRole (groupIri : ResourceIri) (roleName : String) :
    Except GroupNotFound Unit × GroupStore :=
  groups.modifyGroup groupIri fun group =>
    if roleName ∈ group.roles then group else { group with roles := group.roles ++ [roleName] }

/-- `revoke_group_role`. -/
def revokeGroupRole (groupIri : ResourceIri) (roleName : String) :
    Except GroupNotFound Unit × GroupStore :=
  groups.modifyGroup groupIri fun group =>
    { group with roles := group.roles.filter (· ≠ roleName) }

/-- `add_group_member`. -/
def addGroupMember (groupIri memberIri : ResourceIri) : Except GroupNotFound Unit × GroupStore :=
  groups.modifyGroup groupIri fun group =>
    if memberIri.value ∈ group.members then group
    else { group with members := group.members ++ [memberIri.value] }

/-- `remove_group_member`. -/
def removeGroupMember (groupIri memberIri : ResourceIri) : Except GroupNotFound Unit × GroupStore :=
  groups.modifyGroup groupIri fun group =>
    { group with members := group.members.filter (· ≠ memberIri.value) }

end GroupStore

/-- The group operations. -/
inductive GroupCall where
  | createGroup (groupIri : ResourceIri) (roles : List String)
  | assignGroupRole (groupIri : ResourceIri) (roleName : String)
  | revokeGroupRole (groupIri : ResourceIri) (roleName : String)
  | addGroupMember (groupIri memberIri : ResourceIri)
  | removeGroupMember (groupIri memberIri : ResourceIri)

/-- The groups after an operation. -/
def GroupStore.run (groups : GroupStore) : GroupCall → GroupStore
  | .createGroup g roles => groups.createGroup g roles
  | .assignGroupRole g role => (groups.assignGroupRole g role).2
  | .revokeGroupRole g role => (groups.revokeGroupRole g role).2
  | .addGroupMember g u => (groups.addGroupMember g u).2
  | .removeGroupMember g u => (groups.removeGroupMember g u).2

/-! ## What groups are for -/

/-- The groups that exist, and who has which role and which member. -/
@[ext] structure GroupView where
  groups : Set String
  roles : Set (String × String)
  members : Set (String × String)

namespace GroupView

/-- What an operation is to do; operations on a group that does not exist do nothing. -/
def after (v : GroupView) : GroupCall → GroupView
  | .createGroup g roles => {
      groups := insert g.value v.groups
      roles := { e | if e.1 = g.value then e.2 ∈ roles else e ∈ v.roles }
      members := { e ∈ v.members | e.1 ≠ g.value } }
  | .assignGroupRole g role =>
    { v with roles := { e | e ∈ v.roles ∨ g.value ∈ v.groups ∧ e = (g.value, role) } }
  | .revokeGroupRole g role => { v with roles := { e ∈ v.roles | e ≠ (g.value, role) } }
  | .addGroupMember g u =>
    { v with members := { e | e ∈ v.members ∨ g.value ∈ v.groups ∧ e = (g.value, u.value) } }
  | .removeGroupMember g u =>
    { v with members := { e ∈ v.members | e ≠ (g.value, u.value) } }

/-- The identity has the role through one of its groups. -/
def Grants (v : GroupView) (identity role : String) : Prop :=
  ∃ g, (g, identity) ∈ v.members ∧ (g, role) ∈ v.roles

end GroupView

/-- What the stored groups say. -/
def GroupStore.view (groups : GroupStore) : GroupView where
  groups := {g | (groups g).isSome}
  roles := {e | ∃ group, groups e.1 = some group ∧ e.2 ∈ group.roles}
  members := {e | ∃ group, groups e.1 = some group ∧ e.2 ∈ group.members}

/-! ## The operations follow the view -/

namespace GroupStore

variable {groups : GroupStore}

variable {g h : String} {group : StoredGroup}

theorem mem_view_groups : g ∈ groups.view.groups ↔ ∃ group, groups g = some group :=
  Option.isSome_iff_exists

theorem mem_view_roles {role : String} :
    (g, role) ∈ groups.view.roles ↔ ∃ group, groups g = some group ∧ role ∈ group.roles := Iff.rfl

theorem mem_view_members {u : String} :
    (g, u) ∈ groups.view.members ↔ ∃ group, groups g = some group ∧ u ∈ group.members := Iff.rfl

/-- A change of a group that does not exist. -/
theorem modifyGroup_of_none {g : ResourceIri} (h : groups g.value = none)
    (change : StoredGroup → StoredGroup) : groups.modifyGroup g change = (.error ⟨g.value⟩, groups) := by
  rw [modifyGroup, h]

theorem modifyGroup_of_some {g : ResourceIri} (h : groups g.value = some group)
    (change : StoredGroup → StoredGroup) : groups.modifyGroup g change =
      (.ok (), Function.update groups g.value (some (change group))) := by
  rw [modifyGroup, h]

/-- The groups, roles and members after one group has been stored. -/
theorem mem_groups_update :
    h ∈ (view (Function.update groups g (some group))).groups ↔ h = g ∨ h ∈ groups.view.groups := by
  by_cases hg : h = g
  · subst hg
    simp [mem_view_groups]
  · simp [mem_view_groups, hg]

theorem mem_roles_update {role : String} :
    (h, role) ∈ (view (Function.update groups g (some group))).roles ↔
      if h = g then role ∈ group.roles else (h, role) ∈ groups.view.roles := by
  by_cases hg : h = g
  · subst hg
    simp [mem_view_roles]
  · simp [mem_view_roles, hg]

theorem mem_members_update {u : String} :
    (h, u) ∈ (view (Function.update groups g (some group))).members ↔
      if h = g then u ∈ group.members else (h, u) ∈ groups.view.members := by
  by_cases hg : h = g
  · subst hg
    simp [mem_view_members]
  · simp [mem_view_members, hg]

/-- A change of one group, seen in the view: nothing happens to a group that does not exist or to the
other groups. -/
theorem view_modifyGroup {g : ResourceIri} {change : StoredGroup → StoredGroup} {v : GroupView}
    (hnone : groups g.value = none → v = groups.view)
    (hothers : v.groups = groups.view.groups ∧ ∀ h x, h ≠ g.value →
      ((h, x) ∈ v.roles ↔ (h, x) ∈ groups.view.roles) ∧
      ((h, x) ∈ v.members ↔ (h, x) ∈ groups.view.members))
    (hchange : ∀ group, groups g.value = some group → ∀ x,
      ((g.value, x) ∈ v.roles ↔ x ∈ (change group).roles) ∧
      ((g.value, x) ∈ v.members ↔ x ∈ (change group).members)) :
    (groups.modifyGroup g change).2.view = v := by
  cases hg : groups g.value with
  | none => rw [modifyGroup_of_none hg, hnone hg]
  | some group =>
    rw [modifyGroup_of_some hg]
    apply GroupView.ext
    · ext h
      rw [mem_groups_update, hothers.1, or_iff_right_iff_imp]
      rintro rfl
      exact mem_view_groups.mpr ⟨group, hg⟩
    · ext ⟨h, role⟩
      rw [mem_roles_update]
      split_ifs with hh
      · rw [hh, (hchange group hg role).1]
      · rw [(hothers.2 h role hh).1]
    · ext ⟨h, u⟩
      rw [mem_members_update]
      split_ifs with hh
      · rw [hh, (hchange group hg u).2]
      · rw [(hothers.2 h u hh).2]

/-- One operation does to the view what it is to do. -/
theorem view_run_one (call : GroupCall) : (groups.run call).view = groups.view.after call := by
  cases call with
  | createGroup g roles =>
    apply GroupView.ext
    · ext h
      exact mem_groups_update
    · ext ⟨h, role⟩
      exact mem_roles_update
    · ext ⟨h, u⟩
      rw [run, createGroup, mem_members_update]
      by_cases hg : h = g.value <;> simp [GroupView.after, hg]
  | assignGroupRole g role =>
    apply view_modifyGroup
    · intro hg
      ext e <;> simp [GroupView.after, mem_view_groups, hg]
    · exact ⟨rfl, fun h x hh => by simp [GroupView.after, hh]⟩
    · intro group hg x
      by_cases hrole : role ∈ group.roles
      · have hsame : x = role → x ∈ group.roles := fun hx => hx ▸ hrole
        simpa [GroupView.after, mem_view_groups, mem_view_roles, mem_view_members, hg, hrole]
          using hsame
      · simp [GroupView.after, mem_view_groups, mem_view_roles, mem_view_members, hg, hrole]
  | revokeGroupRole g role =>
    apply view_modifyGroup
    · intro hg
      ext ⟨h, x⟩
      · rfl
      · refine and_iff_left_of_imp fun hin heq => ?_
        obtain ⟨group, hgroup, -⟩ := mem_view_roles.mp hin
        rw [(Prod.mk.inj heq).1, hg] at hgroup
        cases hgroup
      · rfl
    · exact ⟨rfl, fun h x hh => by simp [GroupView.after, hh]⟩
    · intro group hg x
      simp [GroupView.after, mem_view_roles, mem_view_members, hg]
  | addGroupMember g u =>
    apply view_modifyGroup
    · intro hg
      ext e <;> simp [GroupView.after, mem_view_groups, hg]
    · exact ⟨rfl, fun h x hh => by simp [GroupView.after, hh]⟩
    · intro group hg x
      by_cases hu : u.value ∈ group.members
      · have hsame : x = u.value → x ∈ group.members := fun hx => hx ▸ hu
        simpa [GroupView.after, mem_view_groups, mem_view_roles, mem_view_members, hg, hu]
          using hsame
      · simp [GroupView.after, mem_view_groups, mem_view_roles, mem_view_members, hg, hu]
  | removeGroupMember g u =>
    apply view_modifyGroup
    · intro hg
      ext ⟨h, x⟩
      · rfl
      · rfl
      · refine and_iff_left_of_imp fun hin heq => ?_
        obtain ⟨group, hgroup, -⟩ := mem_view_members.mp hin
        rw [(Prod.mk.inj heq).1, hg] at hgroup
        cases hgroup
    · exact ⟨rfl, fun h x hh => by simp [GroupView.after, hh]⟩
    · intro group hg x
      simp [GroupView.after, mem_view_roles, mem_view_members, hg]

/-- **The groups after a run** are those that the operations of the run are to make. -/
theorem view_of_run (groups : GroupStore) (calls : List GroupCall) :
    (calls.foldl run groups).view = calls.foldl GroupView.after groups.view := by
  induction calls generalizing groups with
  | nil => rfl
  | cons call calls ih =>
    rw [List.foldl_cons, List.foldl_cons, ih, view_run_one]

end GroupStore

/-! ## The roles of a token -/

/-- The keys of the map, in its order. -/
structure GroupStore.Listing (groups : GroupStore) where
  keys : List String
  nodup : keys.Nodup
  mem_keys : ∀ g, g ∈ keys ↔ (groups g).isSome

/-- The values of the map, in its order. -/
def GroupStore.Listing.values {groups : GroupStore} (listing : groups.Listing) : List StoredGroup :=
  listing.keys.filterMap groups

namespace LocalIdentityProvider

/-- Merging appends the roles that are missing, each once. -/
theorem count_mergeRoles (roles extra : List String) (role : String) :
    (mergeRoles roles extra).count role =
      if role ∈ roles then roles.count role else if role ∈ extra then 1 else 0 := by
  induction extra generalizing roles with
  | nil =>
    by_cases h : role ∈ roles
    · simp [mergeRoles, h]
    · simp [mergeRoles, h, List.count_eq_zero_of_not_mem h]
  | cons r extra ih =>
    rw [mergeRoles, List.foldl_cons, ← mergeRoles, ih]
    by_cases hr : r ∈ roles
    · simp only [hr, if_true, List.mem_cons]
      by_cases h : role ∈ roles
      · simp [h]
      · have hne : role ≠ r := fun heq => h (heq ▸ hr)
        simp [h, hne]
    · simp only [hr, if_false, List.mem_append, List.mem_cons]
      by_cases h : role ∈ roles
      · have hne : r ≠ role := fun heq => hr (heq ▸ h)
        simp [h, List.count_append, hne]
      · by_cases hrole : role = r
        · subst hrole
          simp [h, List.count_append, List.count_eq_zero_of_not_mem h]
        · simp [h, hrole]

variable {role : String}

theorem mem_mergeRoles {roles extra : List String} :
    role ∈ mergeRoles roles extra ↔ role ∈ roles ∨ role ∈ extra := by
  rw [← List.count_pos_iff, count_mergeRoles]
  by_cases h : role ∈ roles
  · simp [h]
  · by_cases hextra : role ∈ extra <;> simp [h, hextra]

/-- The roles from groups are those of some group with the identity. -/
theorem mem_rolesFromGroups {prov : LocalIdentityProvider} {identity : String} :
    role ∈ prov.rolesFromGroups identity ↔
      ∃ group ∈ prov.groups, identity ∈ group.members ∧ role ∈ group.roles := by
  have hfold : ∀ (groups : List StoredGroup) (roles : List String),
      role ∈ groups.foldl (fun roles g => mergeRoles roles g.roles) roles ↔
        role ∈ roles ∨ ∃ group ∈ groups, role ∈ group.roles := by
    intro groups
    induction groups with
    | nil => simp
    | cons group groups ih =>
      intro roles
      rw [List.foldl_cons, ih, mem_mergeRoles]
      simp [or_assoc]
  rw [rolesFromGroups, hfold]
  simp [and_assoc]

/-- The groups that the provider lists give the roles that the view grants. -/
theorem mem_rolesFromGroups_of_listing {prov : LocalIdentityProvider} {groups : GroupStore}
    {listing : groups.Listing} (hgroups : prov.groups = listing.values) {identity : String} :
    role ∈ prov.rolesFromGroups identity ↔ groups.view.Grants identity role := by
  rw [mem_rolesFromGroups, hgroups]
  constructor
  · rintro ⟨group, hgroup, hmember, hrole⟩
    obtain ⟨g, -, hg⟩ := List.mem_filterMap.mp hgroup
    exact ⟨g, ⟨group, hg, hmember⟩, group, hg, hrole⟩
  · rintro ⟨g, ⟨group, hg, hmember⟩, group', hg', hrole⟩
    obtain rfl : group = group' := Option.some.inj (hg.symm.trans hg')
    have hkey : g ∈ listing.keys := (listing.mem_keys g).mpr (Option.isSome_iff_exists.mpr
      ⟨group, hg⟩)
    exact ⟨group, List.mem_filterMap.mpr ⟨g, hkey, hg⟩, hmember, hrole⟩

end LocalIdentityProvider

end Picloud
