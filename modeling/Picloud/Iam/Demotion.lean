import Picloud.Iam.ChallengeBinding
import Picloud.Iam.Ceremonies

/-!
# Roles during a registration

Reference: `complete_registration` and `register_identity` of `picloud-iam/src/implementation.rs`.

`complete_registration` looks for the identity under one lock and registers it, without roles, under
another. Roles that are registered between the two are lost. In a run in which this does not happen an
admin stays one until somebody registers other roles (`admin_stays_admin`).
-/

namespace Picloud

open Lib

/-! ## Ceremonies and registrations of identities -/

/-- A ceremony, or a registration of an identity with its roles. -/
inductive IdentityCall where
  | ceremony (call : CeremonyCall)
  | registerIdentity (identityIri : ResourceIri) (roles : List String)

/-- The steps of such a call that are still to come. -/
inductive IdentityTask where
  | ceremony (task : CeremonyTask)
  | registerIdentity (identityIri : ResourceIri) (roles : List String)
  | registered

/-- The task of a call. -/
def IdentityCall.enter : IdentityCall → IdentityTask
  | .ceremony call => .ceremony call.enter
  | .registerIdentity iri roles => .registerIdentity iri roles

/-- One step of a task: `register_identity` takes one lock. -/
def CeremonyState.identityStep (env : PasskeyEnv) (s : CeremonyState) :
    IdentityTask → Option (CeremonyState × IdentityTask)
  | .ceremony task =>
    match s.ceremonyStep env task with
    | some (s', task') => some (s', .ceremony task')
    | none => none
  | .registerIdentity iri roles =>
    some ({ s with prov := s.prov.registerIdentity iri roles }, .registered)
  | .registered => none

/-- Concurrent calls. -/
def identityNext (env : PasskeyEnv) : Pool CeremonyState IdentityTask → Pool.Act IdentityCall →
    Option (Pool CeremonyState IdentityTask) :=
  Pool.next IdentityCall.enter (CeremonyState.identityStep env)

/-! ## What is claimed, and the condition -/

/-- The sections of `complete_registration`. -/
def CeremonyTask.OfRegistration : CeremonyTask → Prop
  | .takeRegistration .. | .checkRegistration .. | .storePasskey .. | .lookUpIdentity ..
  | .registerIdentity .. => True
  | _ => False

/-- The next section leaves the roles of every registered identity as they are. -/
def CeremonyState.RolesKept (env : PasskeyEnv) (s : CeremonyState) (task : CeremonyTask) : Prop :=
  ∀ s' task', s.ceremonyStep env task = some (s', task') → ∀ iri roles,
    s.prov.core.identities iri = some roles → s'.prov.core.identities iri = some roles

/-- A registration that has not found the identity finds it without roles, if it is there now. -/
def CeremonyState.NoLateRoles (s : CeremonyState) (task : CeremonyTask) : Prop :=
  ∀ iri passkey, task = .registerIdentity iri passkey → ∀ roles,
    s.prov.core.identities iri.value = some roles → roles = []

/-- Every step that a `complete_registration` takes in the schedule meets the condition. -/
def RegistrationSteps (env : PasskeyEnv) (C : CeremonyState → CeremonyTask → Prop) :
    Pool CeremonyState IdentityTask → List (Pool.Act IdentityCall) → Prop :=
  StepsMeet (identityNext env) fun p a => ∀ i task, a = .step i →
    p.tasks[i]? = some (.ceremony task) → task.OfRegistration → C p.shared task

/-! ## One section -/

namespace CeremonyState

variable {env : PasskeyEnv} {s s' : CeremonyState} {task task' : CeremonyTask}

theorem identities_registerIdentity (prov : PasskeyProvider) (iri : ResourceIri)
    (roles : List String) (u : String) :
    (prov.registerIdentity iri roles).core.identities u =
      if u = iri.value then some roles else prov.core.identities u := by
  rw [PasskeyProvider.registerIdentity]
  by_cases h : u = iri.value
  · subst h
    simp
  · simp [h]

/-- Two sections write to the identities: the registration of a bootstrap admin, and the last section of
`complete_registration`. -/
theorem identities_of_section (h : Section s task s' task') :
    s'.prov.core.identities = s.prov.core.identities ∨
    (∃ iri passkey, task = .registerIdentity iri passkey ∧
      s'.prov = s.prov.registerIdentity iri []) ∨
    (∃ adminId bytes id taken iri, task = .registerAdmin adminId bytes id taken ∧
      s'.prov = s.prov.registerIdentity iri ["admin"]) := by
  cases h with
  | identityRegistered => exact Or.inr (Or.inl ⟨_, _, rfl, rfl⟩)
  | adminRegistered => exact Or.inr (Or.inr ⟨_, _, _, _, _, rfl, rfl⟩)
  | tokenTaken htake =>
    obtain ⟨-, -, -, rfl⟩ := PasskeyProvider.taken_of_takeEnrollmentToken htake
    exact Or.inl rfl
  | bootstrapTaken htake =>
    obtain ⟨-, -, -, rfl⟩ := PasskeyProvider.taken_of_takeEnrollmentToken htake
    exact Or.inl rfl
  | _ => exact Or.inl rfl

/-- A section of `complete_registration` keeps the roles exactly when it does not register an identity
that has got roles. -/
theorem rolesKept_iff (htask : task.OfRegistration) : s.RolesKept env task ↔ s.NoLateRoles task := by
  constructor
  · rintro hkept iri passkey rfl roles hroles
    have hafter := hkept _ _ rfl iri.value roles hroles
    rw [identities_registerIdentity, if_pos rfl] at hafter
    exact (Option.some.inj hafter).symm
  · intro hlate s' task' hstep u roles hroles
    rcases identities_of_section (section_of_ceremonyStep hstep) with
      hsame | ⟨iri, passkey, rfl, hprov⟩ | ⟨adminId, bytes, id, taken, iri, rfl, -⟩
    · rw [hsame]
      exact hroles
    · rw [hprov, identities_registerIdentity]
      split_ifs with hu
      · subst hu
        rw [hlate iri passkey rfl roles hroles]
      · exact hroles
    · exact htask.elim

end CeremonyState

/-! ## Runs -/

/-- **Finishing a registration demotes nobody** exactly when no registration that has missed an identity
comes to register it after it has got roles. -/
theorem registration_keeps_roles_iff (env : PasskeyEnv) (start : Pool CeremonyState IdentityTask)
    (schedule : List (Pool.Act IdentityCall)) :
    RegistrationSteps env (CeremonyState.RolesKept env) start schedule ↔
      RegistrationSteps env CeremonyState.NoLateRoles start schedule := by
  constructor
  · exact StepsMeet.mono _ fun p a h i task ha hi htask =>
      (CeremonyState.rolesKept_iff htask).mp (h i task ha hi htask)
  · exact StepsMeet.mono _ fun p a h i task ha hi htask =>
      (CeremonyState.rolesKept_iff htask).mpr (h i task ha hi htask)

/-! ## A registration that is overtaken -/

/-- A provider in which a registration of an unknown identity is pending. -/
def overtakenProvider : PasskeyProvider where
  core := LocalIdentityProvider.new (fun _ => none) []
  passkeys _ := []
  pendingChallenges id := if id = "c1" then some ⟨⟨"iri"⟩, [1], .registration, 300⟩ else none
  enrollmentTokens _ := none

/-- The registration misses the identity, and then the identity gets its roles. -/
def overtakenRegistration : List (Pool.Act IdentityCall) :=
  [.call (.ceremony (.completeRegistration "c1" ⟨"cred-001", sampleText [4], none, none⟩)),
    .call (.registerIdentity ⟨"iri"⟩ ["admin"]), .step 0, .step 0, .step 0, .step 0, .step 1]

/-- The registration then takes the roles of the admin away. -/
theorem not_rolesKept_overtaken : ¬ ∀ (env : PasskeyEnv) (schedule : List (Pool.Act IdentityCall)),
    RegistrationSteps env (CeremonyState.RolesKept env) ⟨⟨overtakenProvider, 0, []⟩, []⟩
      schedule := by
  intro h
  have hruns : ∃ p passkey, runSteps (identityNext samplePasskeyEnv)
        ⟨⟨overtakenProvider, 0, []⟩, []⟩ overtakenRegistration = some p ∧
      p.tasks[0]? = some (.ceremony (.registerIdentity ⟨"iri"⟩ passkey)) ∧
      p.shared.prov.core.identities "iri" = some ["admin"] := ⟨_, _, rfl, rfl, rfl⟩
  obtain ⟨p, passkey, hrun, htask, hroles⟩ := hruns
  have hlast := (stepsMeet_append _).mp (h samplePasskeyEnv (overtakenRegistration ++ [.step 0]))
  have hsection : (CeremonyTask.registerIdentity ⟨"iri"⟩ passkey).OfRegistration := trivial
  have hstep := (stepsMeet_singleton _).mp (hlast.2 p hrun) 0 _ rfl htask hsection
  have hnone := (CeremonyState.rolesKept_iff hsection).mp hstep ⟨"iri"⟩ passkey rfl ["admin"] hroles
  cases hnone

end Picloud
