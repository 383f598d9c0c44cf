import Picloud.Iam.ChallengeBinding

/-!
# Removing passkeys

Reference: `remove_passkey` of `picloud-iam/src/implementation.rs`.

An identity is to keep two passkeys. The guard counts the passkeys of the identity, the removal takes
away every passkey with the credential id, and nothing keeps the credential ids of an identity apart:
the client of a registration chooses them.
-/

namespace Picloud

open Lib

/-- `PiCloudError::Unauthorized`. -/
structure UnauthorizedError where
  identity : String
  permission : String
deriving DecidableEq

namespace PasskeyProvider

/-- `remove_passkey`. -/
def removePasskey (s : PasskeyProvider) (identityIri : ResourceIri) (credentialId : String) :
    Except UnauthorizedError Unit × PasskeyProvider :=
  let passkeys := s.passkeys identityIri.value
  if passkeys.length ≤ 2 then
    (.error ⟨identityIri.value,
      "remove_passkey: admin accounts must retain at least 2 passkeys (ADR-025)"⟩, s)
  else
    let entry := passkeys.filter (·.credentialId ≠ credentialId)
    (.ok (), { s with passkeys := Function.update s.passkeys identityIri.value entry })

end PasskeyProvider

/-! ## Runs -/

/-- The calls that add passkeys and remove them. The credential id of a registration is what the
client sends. -/
inductive PasskeyCall where
  | beginRegistration (now : ℤ) (identityIri : ResourceIri) (challengeBytes : Bytes)
      (challengeId : String)
  | completeRegistration (now : ℤ) (challengeId : String) (response : RegistrationResponse)
  | storePasskey (identityIri : ResourceIri) (passkey : RegisteredPasskey)
  | removePasskey (identityIri : ResourceIri) (credentialId : String)

/-- The provider after a call. -/
def PasskeyCall.run (env : PasskeyEnv) (s : PasskeyProvider) : PasskeyCall → PasskeyProvider
  | .beginRegistration now iri bytes id => (s.beginRegistration env now iri bytes id).2
  | .completeRegistration now id response => (s.completeRegistration env now id response).2
  | .storePasskey iri passkey => s.storePasskey iri passkey
  | .removePasskey iri credentialId => (s.removePasskey iri credentialId).2

/-- One call of a run. -/
def passkeyNext (env : PasskeyEnv) (s : PasskeyProvider) (call : PasskeyCall) :
    Option PasskeyProvider :=
  some (call.run env s)

/-! ## What is claimed, and the condition -/

/-- What is claimed of a removal: when it succeeds, two passkeys are left and exactly those with the
credential id are gone, and when it fails the passkeys are as before. -/
structure PasskeyProvider.RemovalSafe (s : PasskeyProvider) (iri : ResourceIri)
    (credentialId : String) : Prop where
  minimum : (s.removePasskey iri credentialId).1 = .ok () →
    2 ≤ ((s.removePasskey iri credentialId).2.passkeys iri.value).length
  exactly : (s.removePasskey iri credentialId).1 = .ok () → ∀ u p,
    ((s.removePasskey iri credentialId).2.passkeys u).count p =
      if u = iri.value ∧ p.credentialId = credentialId then 0 else (s.passkeys u).count p
  refused : ∀ e, (s.removePasskey iri credentialId).1 = .error e →
    (s.removePasskey iri credentialId).2.passkeys = s.passkeys

/-- Every removal of the run is safe. -/
def RemovalsSafe (env : PasskeyEnv) : PasskeyProvider → List PasskeyCall → Prop :=
  StepsMeet (passkeyNext env) fun s call => ∀ iri credentialId,
    call = .removePasskey iri credentialId → s.RemovalSafe iri credentialId

/-- The removal is refused, or two of the passkeys of the identity have another credential id. -/
def PasskeyProvider.TwoOthers (s : PasskeyProvider) (iri : ResourceIri) (credentialId : String) :
    Prop :=
  (s.passkeys iri.value).length ≤ 2 ∨
    (s.passkeys iri.value).countP (·.credentialId = credentialId) + 2 ≤
      (s.passkeys iri.value).length

/-- Every removal of the run leaves two passkeys with other credential ids, or is refused. -/
def TwoOthersRemain (env : PasskeyEnv) : PasskeyProvider → List PasskeyCall → Prop :=
  StepsMeet (passkeyNext env) fun s call => ∀ iri credentialId,
    call = .removePasskey iri credentialId → s.TwoOthers iri credentialId

/-! ## One removal -/

namespace PasskeyProvider

variable {s : PasskeyProvider} {iri : ResourceIri} {credentialId : String}

/-- A removal succeeds when there are three passkeys. -/
theorem removePasskey_of_lt (h : 2 < (s.passkeys iri.value).length) :
    (s.removePasskey iri credentialId).1 = .ok () ∧
      (s.removePasskey iri credentialId).2.passkeys = Function.update s.passkeys iri.value
        ((s.passkeys iri.value).filter (·.credentialId ≠ credentialId)) := by
  rw [removePasskey, if_neg (by omega)]
  exact ⟨rfl, rfl⟩

theorem removePasskey_of_le (h : (s.passkeys iri.value).length ≤ 2) :
    (s.removePasskey iri credentialId).1 ≠ .ok () ∧
      (s.removePasskey iri credentialId).2 = s := by
  rw [removePasskey, if_pos h]
  exact ⟨by simp, rfl⟩

/-- What is removed and what is left add up. -/
theorem length_filter_add_countP (passkeys : List RegisteredPasskey) (credentialId : String) :
    (passkeys.filter (·.credentialId ≠ credentialId)).length +
      passkeys.countP (·.credentialId = credentialId) = passkeys.length := by
  have h := List.length_eq_countP_add_countP (p := (·.credentialId = credentialId)) (l := passkeys)
  have hother : (passkeys.filter (·.credentialId ≠ credentialId)).length =
      passkeys.countP (fun p => ¬ (decide (p.credentialId = credentialId)) = true) := by
    rw [← List.countP_eq_length_filter]
    exact List.countP_congr fun p _ => by simp
  omega

/-- Exactly the passkeys with the credential id are gone. -/
theorem count_removePasskey (h : 2 < (s.passkeys iri.value).length) (u : String)
    (p : RegisteredPasskey) :
    ((s.removePasskey iri credentialId).2.passkeys u).count p =
      if u = iri.value ∧ p.credentialId = credentialId then 0 else (s.passkeys u).count p := by
  rw [(removePasskey_of_lt h).2]
  by_cases hu : u = iri.value
  · subst hu
    by_cases hid : p.credentialId = credentialId
    · rw [if_pos ⟨rfl, hid⟩, Function.update_self]
      exact List.count_eq_zero.mpr fun hmem => by simp [hid] at hmem
    · rw [if_neg fun h => hid h.2, Function.update_self]
      exact List.count_filter (by simpa using hid)
  · rw [if_neg fun h => hu h.1, Function.update_of_ne hu]

/-- A removal is safe exactly when it is refused or leaves two passkeys with other ids. -/
theorem removalSafe_iff : s.RemovalSafe iri credentialId ↔ s.TwoOthers iri credentialId := by
  rcases le_or_gt (s.passkeys iri.value).length 2 with hle | hlt
  · obtain ⟨hnotOk, hsame⟩ : (s.removePasskey iri credentialId).1 ≠ .ok () ∧
        (s.removePasskey iri credentialId).2 = s := removePasskey_of_le hle
    refine iff_of_true ⟨fun h => absurd h hnotOk, fun h => absurd h hnotOk, fun _ _ => ?_⟩
      (Or.inl hle)
    rw [hsame]
  · have hadd := length_filter_add_countP (s.passkeys iri.value) credentialId
    have hleft : (s.removePasskey iri credentialId).2.passkeys iri.value =
        (s.passkeys iri.value).filter (·.credentialId ≠ credentialId) := by
      rw [(removePasskey_of_lt hlt).2, Function.update_self]
    have hok : (s.removePasskey iri credentialId).1 = .ok () := (removePasskey_of_lt hlt).1
    constructor
    · intro hsafe
      have hmin := hsafe.minimum hok
      rw [hleft] at hmin
      exact Or.inr (by omega)
    · rintro (hle | hothers)
      · omega
      · refine ⟨fun _ => ?_, fun _ => count_removePasskey hlt, fun e he => ?_⟩
        · rw [hleft]
          omega
        · rw [hok] at he
          cases he

end PasskeyProvider

/-! ## Credential ids that are new -/

namespace PasskeyProvider

variable {s : PasskeyProvider}

end PasskeyProvider

/-! ## Runs that keep the minimum -/

/-- **A run keeps the recovery minimum** exactly when each of its removals is refused or leaves two
passkeys of the identity that have another credential id. -/
theorem removals_safe_iff (env : PasskeyEnv) (start : PasskeyProvider) (calls : List PasskeyCall) :
    RemovalsSafe env start calls ↔ TwoOthersRemain env start calls := by
  constructor
  · exact StepsMeet.mono _ fun s call h iri id hcall =>
      PasskeyProvider.removalSafe_iff.mp (h iri id hcall)
  · exact StepsMeet.mono _ fun s call h iri id hcall =>
      PasskeyProvider.removalSafe_iff.mpr (h iri id hcall)

/-- A provider without identities. -/
def PasskeyProvider.blank : PasskeyProvider :=
  ⟨.new (fun _ => none) [], fun _ => [], fun _ => none, fun _ => none⟩

/-- The passkey of a client that sends the same credential id each time. -/
def repeatedPasskey : RegisteredPasskey := ⟨"cred-0", [], none, 0, none, none⟩

/-- Three registrations with one credential id, and a removal. -/
def repeatedRegistrations : List PasskeyCall :=
  [.storePasskey ⟨"iri"⟩ repeatedPasskey, .storePasskey ⟨"iri"⟩ repeatedPasskey,
    .storePasskey ⟨"iri"⟩ repeatedPasskey, .removePasskey ⟨"iri"⟩ "cred-0"]

/-- The removal takes away all three passkeys. -/
theorem not_removalsSafe_repeated : ¬ ∀ (env : PasskeyEnv) (calls : List PasskeyCall),
    RemovalsSafe env .blank calls := by
  intro h
  obtain ⟨-, -, -, hremoval, -⟩ := h samplePasskeyEnv repeatedRegistrations
  have hminimum := (hremoval ⟨"iri"⟩ "cred-0" rfl).minimum (by decide)
  revert hminimum
  decide

end Picloud
