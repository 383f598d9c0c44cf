import Picloud.Iam.Passkeys
import Picloud.Lib.Pool

/-!
# Concurrent ceremonies

Reference: the passkey ceremonies and the authorization code flow of
`picloud-iam/src/implementation.rs`, called by any number of clients at once.

A call is a task that executes its lock-protected sections one at a time; what the source does
between two locks is a step of its own when it reads the clock, and belongs to the section before it
otherwise. The clock is part of the shared state and is set, to any value, by tasks of their own.
`log` records what has been made and what has been used up. A call that is executed alone is the
sequential function (`prov_of_alone`).
-/

namespace Picloud

open Lib

/-! ## Calls and tasks -/

/-- The calls, with what they draw at random. -/
inductive CeremonyCall where
  | tick (now : ℤ)
  | beginRegistration (identityIri : ResourceIri) (challengeBytes : Bytes) (challengeId : String)
  | completeRegistration (challengeId : String) (response : RegistrationResponse)
  | beginAuthentication (identityIri : ResourceIri) (challengeBytes : Bytes) (challengeId : String)
  | completeAuthentication (challengeId : String) (response : AuthenticationResponse)
  | enrollWithToken (token : String) (adminId : Uuid) (challengeBytes : Bytes)
      (challengeId : String)
  | beginAuthorizationCode (code clientId redirectUri : String) (scope : Option String)
      (identityIri : ResourceIri)
  | exchangeAuthorizationCode (code clientId redirectUri : String)

/-- What a call returns. -/
inductive CeremonyReply where
  | ticked
  | registration (challengeId : String) (options : RegistrationChallenge)
  | authentication (challengeId : String) (options : AuthenticationChallenge)
  | passkey (passkey : RegisteredPasskey)
  | token (token : AccessToken)
  | code (code : String)
  | tokens (response : TokenResponse)
  | failed (error : PasskeyError)
  | rejected (error : IamError)
deriving DecidableEq

/-- An enrollment token that has been marked as used. -/
structure TakenToken where
  token : String
  /-- The stored token, before it was marked. -/
  stored : EnrollmentToken
  takenAt : ℤ
deriving DecidableEq

/-- The steps of a call that are still to come. -/
inductive CeremonyTask where
  | tick (now : ℤ)
  | beginRegistration (identityIri : ResourceIri) (challengeBytes : Bytes) (challengeId : String)
      (taken : Option TakenToken)
  | beginAuthentication (identityIri : ResourceIri) (challengeBytes : Bytes) (challengeId : String)
  | insertChallenge (challengeId : String) (pending : PendingChallenge) (reply : CeremonyReply)
      (taken : Option TakenToken)
  | takeRegistration (challengeId : String) (response : RegistrationResponse)
  | checkRegistration (challengeId : String) (pending : PendingChallenge)
      (response : RegistrationResponse)
  | storePasskey (challengeId : String) (pending : PendingChallenge) (checkedAt : ℤ)
      (passkey : RegisteredPasskey)
  | lookUpIdentity (identityIri : ResourceIri) (passkey : RegisteredPasskey)
  | registerIdentity (identityIri : ResourceIri) (passkey : RegisteredPasskey)
  | takeAuthentication (challengeId : String) (response : AuthenticationResponse)
  | checkAuthentication (challengeId : String) (pending : PendingChallenge)
      (response : AuthenticationResponse)
  | readPasskeys (challengeId : String) (pending : PendingChallenge) (checkedAt : ℤ)
      (response : AuthenticationResponse)
  | touchPasskey (challengeId : String) (pending : PendingChallenge) (checkedAt : ℤ)
      (response : AuthenticationResponse)
  | issueToken (challengeId : String) (pending : PendingChallenge) (checkedAt : ℤ)
  | takeEnrollmentToken (token : String) (adminId : Uuid) (challengeBytes : Bytes)
      (challengeId : String)
  | registerAdmin (adminId : Uuid) (challengeBytes : Bytes) (challengeId : String)
      (taken : TakenToken)
  | beginCode (code clientId redirectUri : String) (scope : Option String)
      (identityIri : ResourceIri)
  | insertCode (code : String) (pending : PendingAuthorizationCode)
  | takeCode (code clientId : String)
  | checkCode (code clientId : String) (pending : PendingAuthorizationCode)
  | readApp (code clientId : String) (pending : PendingAuthorizationCode) (checkedAt : ℤ)
  | issueCodeToken (code clientId : String) (pending : PendingAuthorizationCode) (checkedAt : ℤ)
      (app : StoredAppRegistration)
  | done (reply : CeremonyReply)

/-- The task of a call. -/
def CeremonyCall.enter : CeremonyCall → CeremonyTask
  | .tick now => .tick now
  | .beginRegistration iri bytes id => .beginRegistration iri bytes id none
  | .completeRegistration id response => .takeRegistration id response
  | .beginAuthentication iri bytes id => .beginAuthentication iri bytes id
  | .completeAuthentication id response => .takeAuthentication id response
  | .enrollWithToken token adminId bytes id => .takeEnrollmentToken token adminId bytes id
  | .beginAuthorizationCode code clientId redirectUri scope iri =>
    .beginCode code clientId redirectUri scope iri
  | .exchangeAuthorizationCode code clientId _ => .takeCode code clientId

/-! ## Enrollment tokens -/

namespace PasskeyProvider

variable {s prov : PasskeyProvider} {now : ℤ} {token : String}

/-- A token that is taken was stored, unused and unexpired, and is marked. -/
theorem taken_of_takeEnrollmentToken {stored : EnrollmentToken}
    (h : s.takeEnrollmentToken now token = (.ok stored, prov)) :
    s.enrollmentTokens token = some stored ∧ stored.used = false ∧ now < stored.expiresAt ∧
      prov = { s with enrollmentTokens :=
        Function.update s.enrollmentTokens token (some { stored with used := true }) } := by
  rw [takeEnrollmentToken] at h
  split at h
  · cases h
  · next stored' hstored =>
    split at h
    · next hvalid =>
      cases h
      simp only [isValid, Bool.and_eq_true, Bool.not_eq_true', decide_eq_true_eq] at hvalid
      exact ⟨hstored, hvalid.1, hvalid.2, rfl⟩
    · cases h

/-- A refused token changes nothing. -/
theorem prov_of_refused {e : PasskeyError}
    (h : s.takeEnrollmentToken now token = (.error e, prov)) : prov = s := by
  rw [takeEnrollmentToken] at h
  split at h
  · cases h; rfl
  · split at h
    · cases h
    · cases h; rfl

end PasskeyProvider

/-! ## The shared state -/

/-- What has happened to the one-shot credentials. -/
inductive CredentialEvent where
  | challengeMade (challengeId : String) (pending : PendingChallenge)
  | codeMade (code : String) (pending : PendingAuthorizationCode)
  | passkeyStored (challengeId : String) (pending : PendingChallenge) (checkedAt : ℤ)
      (passkey : RegisteredPasskey)
  | tokenIssued (challengeId : String) (pending : PendingChallenge) (checkedAt : ℤ)
      (token : AccessToken)
  | codeRedeemed (code clientId : String) (pending : PendingAuthorizationCode) (checkedAt : ℤ)
      (token : AccessToken)
  | enrolled (taken : TakenToken) (challengeId : String)
deriving DecidableEq

/-- The provider, the clock and the log. -/
structure CeremonyState where
  prov : PasskeyProvider
  now : ℤ
  log : List CredentialEvent

namespace CeremonyState

variable (env : PasskeyEnv) (s : CeremonyState)

/-- The events of an inserted challenge: it may have been asked for by an enrollment. -/
def insertionEvents (challengeId : String) (pending : PendingChallenge) :
    Option TakenToken → List CredentialEvent
  | none => [.challengeMade challengeId pending]
  | some taken => [.challengeMade challengeId pending, .enrolled taken challengeId]

/-- Write to the log. -/
def record (events : List CredentialEvent) : CeremonyState := { s with log := s.log ++ events }

/-- The provider of the authorization codes. -/
def withCore (core : LocalIdentityProvider) : CeremonyState :=
  { s with prov := { s.prov with core := core } }

/-- Insert an authorization code, or remove it. -/
def setCode (code : String) (pending : Option PendingAuthorizationCode) : CeremonyState :=
  let codes := Function.update s.prov.core.pendingAuthCodes code pending
  s.withCore { s.prov.core with pendingAuthCodes := codes }

/-- The checks of a code that has been taken out. -/
def codeAccepted (pending : PendingAuthorizationCode) (clientId : String) : Bool :=
  decide (s.now < pending.expiresAt) && decide (pending.clientId = clientId)

/-- The response for a code that has passed the checks. -/
def codeResponse (pending : PendingAuthorizationCode) (app : StoredAppRegistration) :
    TokenResponse where
  accessToken := s.prov.core.issueTokenWithAudience env.iam s.now pending.identityIri
    (env.iam.iris.product app.productName) pending.scopes
  tokenType := "Bearer"
  expiresIn := env.iam.tokenTtlSecs
  scope := if pending.scopes = [] then none else some (" ".intercalate pending.scopes)

/-- One step of a task. -/
def ceremonyStep : CeremonyTask → Option (CeremonyState × CeremonyTask)
  | .tick now => some ({ s with now := now }, .done .ticked)
  | .beginRegistration iri bytes id taken =>
    some (s, .insertChallenge id (PasskeyProvider.newChallenge s.now iri bytes .registration)
      (.registration id (PasskeyProvider.registrationOptions env iri bytes)) taken)
  | .beginAuthentication iri bytes id =>
    if s.prov.passkeys iri.value = [] then
      some (s, .done (.failed ⟨"no passkeys registered for this identity"⟩))
    else some (s, .insertChallenge id
      (PasskeyProvider.newChallenge s.now iri bytes .authentication) (.authentication id
        (PasskeyProvider.authenticationOptions env (s.prov.passkeys iri.value) bytes)) none)
  | .insertChallenge id pending reply taken =>
    some ({ s with prov := s.prov.insertChallenge id pending }.record
      (insertionEvents id pending taken), .done reply)
  | .takeRegistration id response =>
    match s.prov.pendingChallenges id with
    | none => some (s, .done (.failed ⟨"unknown or expired challenge ID"⟩))
    | some pending =>
      some ({ s with prov := s.prov.removeChallenge id }, .checkRegistration id pending response)
  | .checkRegistration id pending response =>
    match PasskeyProvider.checkChallenge .registration s.now pending with
    | .error e => some (s, .done (.failed e))
    | .ok () =>
      match PasskeyProvider.newPasskey env s.now response with
      | .error e => some (s, .done (.failed e))
      | .ok passkey => some (s, .storePasskey id pending s.now passkey)
  | .storePasskey id pending checkedAt passkey =>
    some ({ s with prov := s.prov.storePasskey pending.identityIri passkey }.record
      [.passkeyStored id pending checkedAt passkey], .lookUpIdentity pending.identityIri passkey)
  | .lookUpIdentity iri passkey =>
    if (s.prov.core.identities iri.value).isNone then some (s, .registerIdentity iri passkey)
    else some (s, .done (.passkey passkey))
  | .registerIdentity iri passkey =>
    some ({ s with prov := s.prov.registerIdentity iri [] }, .done (.passkey passkey))
  | .takeAuthentication id response =>
    match s.prov.pendingChallenges id with
    | none => some (s, .done (.failed ⟨"unknown or expired challenge ID"⟩))
    | some pending =>
      some ({ s with prov := s.prov.removeChallenge id }, .checkAuthentication id pending response)
  | .checkAuthentication id pending response =>
    match PasskeyProvider.checkChallenge .authentication s.now pending with
    | .error e => some (s, .done (.failed e))
    | .ok () => some (s, .readPasskeys id pending s.now response)
  | .readPasskeys id pending checkedAt response =>
    match PasskeyProvider.matchPasskey env (s.prov.passkeys pending.identityIri.value)
        pending.challengeBytes response with
    | .error e => some (s, .done (.failed e))
    | .ok _ => some (s, .touchPasskey id pending checkedAt response)
  | .touchPasskey id pending checkedAt response =>
    some ({ s with
      prov := s.prov.touchPasskey s.now pending.identityIri response.credentialId },
      .issueToken id pending checkedAt)
  -- the roles and the groups are read under two locks; no call here changes the groups
  | .issueToken id pending checkedAt =>
    let token := s.prov.core.issueToken env.iam s.now pending.identityIri none
    some (s.record [.tokenIssued id pending checkedAt token], .done (.token token))
  | .takeEnrollmentToken token adminId bytes id =>
    match s.prov.takeEnrollmentToken s.now token with
    | (.error e, prov) => some ({ s with prov := prov }, .done (.failed e))
    | (.ok stored, prov) =>
      match stored.targetIdentity with
      | some iri => some ({ s with prov := prov },
          .beginRegistration iri bytes id (some ⟨token, stored, s.now⟩))
      | none => some ({ s with prov := prov },
          .registerAdmin adminId bytes id ⟨token, stored, s.now⟩)
  | .registerAdmin adminId bytes id taken =>
    let iri : ResourceIri := ⟨env.iam.iris.resource "platform" "identities" adminId.display⟩
    some ({ s with prov := s.prov.registerIdentity iri ["admin"] },
      .beginRegistration iri bytes id (some taken))
  | .beginCode code clientId redirectUri scope iri =>
    match s.prov.core.appRegistrations clientId with
    | none => some (s, .done (.rejected .unauthenticated))
    | some _ => some (s, .insertCode code
        ⟨iri, clientId, redirectUri, requestedScopes scope, s.now + 600⟩)
  | .insertCode code pending =>
    some ((s.setCode code (some pending)).record [.codeMade code pending], .done (.code code))
  | .takeCode code clientId =>
    match s.prov.core.pendingAuthCodes code with
    | none => some (s, .done (.rejected .unauthenticated))
    | some pending => some (s.setCode code none, .checkCode code clientId pending)
  | .checkCode code clientId pending =>
    if s.codeAccepted pending clientId then some (s, .readApp code clientId pending s.now)
    else some (s, .done (.rejected .unauthenticated))
  | .readApp code clientId pending checkedAt =>
    match s.prov.core.appRegistrations clientId with
    | none => some (s, .done (.rejected .unauthenticated))
    | some app => some (s, .issueCodeToken code clientId pending checkedAt app)
  | .issueCodeToken code clientId pending checkedAt app =>
    let response := s.codeResponse env pending app
    some (s.record [.codeRedeemed code clientId pending checkedAt response.accessToken],
      .done (.tokens response))
  | .done _ => none

/-- Concurrent calls. -/
def ceremonyNext : Pool CeremonyState CeremonyTask → Pool.Act CeremonyCall →
    Option (Pool CeremonyState CeremonyTask) :=
  Pool.next CeremonyCall.enter (ceremonyStep env)

/-! ## What a step does -/

/-- Everything a step can do. A step that only ends its task is `stopped`, whatever it looked at. -/
inductive Section : CeremonyTask → CeremonyState → CeremonyTask → Prop
  | stopped {t : CeremonyTask} {reply : CeremonyReply} : Section t s (.done reply)
  | ticked {now : ℤ} : Section (.tick now) { s with now := now } (.done .ticked)
  | registrationBegun {iri : ResourceIri} {bytes : Bytes} {id : String}
    {taken : Option TakenToken} {reply : CeremonyReply} :
    Section (.beginRegistration iri bytes id taken) s
      (.insertChallenge id (PasskeyProvider.newChallenge s.now iri bytes .registration) reply taken)
  | authenticationBegun {iri : ResourceIri} {bytes : Bytes} {id : String} {reply : CeremonyReply} :
    Section (.beginAuthentication iri bytes id) s
      (.insertChallenge id (PasskeyProvider.newChallenge s.now iri bytes .authentication) reply none)
  | challengeInserted {id : String} {pending : PendingChallenge} {reply : CeremonyReply}
    {taken : Option TakenToken} : Section (.insertChallenge id pending reply taken)
      ({ s with prov := s.prov.insertChallenge id pending }.record
        (insertionEvents id pending taken)) (.done reply)
  | registrationTaken {id : String} {pending : PendingChallenge} {response : RegistrationResponse}
    (hpending : s.prov.pendingChallenges id = some pending) :
    Section (.takeRegistration id response) { s with prov := s.prov.removeChallenge id }
      (.checkRegistration id pending response)
  | registrationChecked {id : String} {pending : PendingChallenge} {response : RegistrationResponse}
    {passkey : RegisteredPasskey}
    (hcheck : PasskeyProvider.checkChallenge .registration s.now pending = .ok ()) :
    Section (.checkRegistration id pending response) s (.storePasskey id pending s.now passkey)
  | passkeyStored {id : String} {pending : PendingChallenge} {checkedAt : ℤ}
    {passkey : RegisteredPasskey} : Section (.storePasskey id pending checkedAt passkey)
      ({ s with prov := s.prov.storePasskey pending.identityIri passkey }.record
        [.passkeyStored id pending checkedAt passkey]) (.lookUpIdentity pending.identityIri passkey)
  | identityMissing {iri : ResourceIri} {passkey : RegisteredPasskey} :
    Section (.lookUpIdentity iri passkey) s (.registerIdentity iri passkey)
  | identityRegistered {iri : ResourceIri} {passkey : RegisteredPasskey} :
    Section (.registerIdentity iri passkey) { s with prov := s.prov.registerIdentity iri [] }
      (.done (.passkey passkey))
  | authenticationTaken {id : String} {pending : PendingChallenge}
    {response : AuthenticationResponse} (hpending : s.prov.pendingChallenges id = some pending) :
    Section (.takeAuthentication id response) { s with prov := s.prov.removeChallenge id }
      (.checkAuthentication id pending response)
  | authenticationChecked {id : String} {pending : PendingChallenge}
    {response : AuthenticationResponse}
    (hcheck : PasskeyProvider.checkChallenge .authentication s.now pending = .ok ()) :
    Section (.checkAuthentication id pending response) s (.readPasskeys id pending s.now response)
  | passkeyMatched {id : String} {pending : PendingChallenge} {checkedAt : ℤ}
    {response : AuthenticationResponse} : Section (.readPasskeys id pending checkedAt response) s
      (.touchPasskey id pending checkedAt response)
  | passkeyTouched {id : String} {pending : PendingChallenge} {checkedAt : ℤ}
    {response : AuthenticationResponse} : Section (.touchPasskey id pending checkedAt response)
      { s with prov := s.prov.touchPasskey s.now pending.identityIri response.credentialId }
      (.issueToken id pending checkedAt)
  | tokenIssued {id : String} {pending : PendingChallenge} {checkedAt : ℤ} {token : AccessToken} :
    Section (.issueToken id pending checkedAt)
      (s.record [.tokenIssued id pending checkedAt token]) (.done (.token token))
  | tokenTaken {token : String} {adminId : Uuid} {bytes : Bytes} {id : String}
    {stored : EnrollmentToken} {iri : ResourceIri} {prov : PasskeyProvider}
    (htake : s.prov.takeEnrollmentToken s.now token = (.ok stored, prov)) :
    Section (.takeEnrollmentToken token adminId bytes id) { s with prov := prov }
      (.beginRegistration iri bytes id (some ⟨token, stored, s.now⟩))
  | bootstrapTaken {token : String} {adminId : Uuid} {bytes : Bytes} {id : String}
    {stored : EnrollmentToken} {prov : PasskeyProvider}
    (htake : s.prov.takeEnrollmentToken s.now token = (.ok stored, prov)) :
    Section (.takeEnrollmentToken token adminId bytes id) { s with prov := prov }
      (.registerAdmin adminId bytes id ⟨token, stored, s.now⟩)
  | adminRegistered {adminId : Uuid} {bytes : Bytes} {id : String} {taken : TakenToken}
    {iri : ResourceIri} : Section (.registerAdmin adminId bytes id taken)
      { s with prov := s.prov.registerIdentity iri ["admin"] }
      (.beginRegistration iri bytes id (some taken))
  | codeBegun {code clientId redirectUri : String} {scope : Option String} {iri : ResourceIri} :
    Section (.beginCode code clientId redirectUri scope iri) s (.insertCode code
      ⟨iri, clientId, redirectUri, requestedScopes scope, s.now + 600⟩)
  | codeInserted {code : String} {pending : PendingAuthorizationCode} :
    Section (.insertCode code pending)
      ((s.setCode code (some pending)).record [.codeMade code pending]) (.done (.code code))
  | codeTaken {code clientId : String} {pending : PendingAuthorizationCode}
    (hpending : s.prov.core.pendingAuthCodes code = some pending) :
    Section (.takeCode code clientId) (s.setCode code none) (.checkCode code clientId pending)
  | codeChecked {code clientId : String} {pending : PendingAuthorizationCode}
    (haccepted : s.codeAccepted pending clientId = true) :
    Section (.checkCode code clientId pending) s (.readApp code clientId pending s.now)
  | appRead {code clientId : String} {pending : PendingAuthorizationCode} {checkedAt : ℤ}
    {app : StoredAppRegistration} : Section (.readApp code clientId pending checkedAt) s
      (.issueCodeToken code clientId pending checkedAt app)
  | codeTokenIssued {code clientId : String} {pending : PendingAuthorizationCode} {checkedAt : ℤ}
    {app : StoredAppRegistration} {response : TokenResponse} :
    Section (.issueCodeToken code clientId pending checkedAt app)
      (s.record [.codeRedeemed code clientId pending checkedAt response.accessToken])
      (.done (.tokens response))

variable {env s} in
theorem section_of_ceremonyStep {s' : CeremonyState} {t t' : CeremonyTask}
    (h : s.ceremonyStep env t = some (s', t')) : Section s t s' t' := by
  cases t with
  | tick now => cases h; exact .ticked
  | beginRegistration iri bytes id taken => cases h; exact .registrationBegun
  | beginAuthentication iri bytes id =>
    rw [ceremonyStep] at h
    split at h
    · cases h; exact .stopped
    · cases h; exact .authenticationBegun
  | insertChallenge id pending reply taken => cases h; exact .challengeInserted
  | takeRegistration id response =>
    rw [ceremonyStep] at h
    split at h
    · cases h; exact .stopped
    · next pending hpending => cases h; exact .registrationTaken hpending
  | checkRegistration id pending response =>
    rw [ceremonyStep] at h
    split at h
    · cases h; exact .stopped
    · next hcheck =>
      split at h
      · cases h; exact .stopped
      · cases h; exact .registrationChecked hcheck
  | storePasskey id pending checkedAt passkey => cases h; exact .passkeyStored
  | lookUpIdentity iri passkey =>
    rw [ceremonyStep] at h
    split at h
    · cases h; exact .identityMissing
    · cases h; exact .stopped
  | registerIdentity iri passkey => cases h; exact .identityRegistered
  | takeAuthentication id response =>
    rw [ceremonyStep] at h
    split at h
    · cases h; exact .stopped
    · next pending hpending => cases h; exact .authenticationTaken hpending
  | checkAuthentication id pending response =>
    rw [ceremonyStep] at h
    split at h
    · cases h; exact .stopped
    · next hcheck => cases h; exact .authenticationChecked hcheck
  | readPasskeys id pending checkedAt response =>
    rw [ceremonyStep] at h
    split at h
    · cases h; exact .stopped
    · cases h; exact .passkeyMatched
  | touchPasskey id pending checkedAt response => cases h; exact .passkeyTouched
  | issueToken id pending checkedAt => cases h; exact .tokenIssued
  | takeEnrollmentToken token adminId bytes id =>
    rw [ceremonyStep] at h
    split at h
    · next e prov htake =>
      cases h
      have hprov : prov = s.prov := PasskeyProvider.prov_of_refused htake
      rw [hprov]
      exact .stopped
    · next stored prov htake =>
      split at h
      · cases h; exact .tokenTaken htake
      · cases h; exact .bootstrapTaken htake
  | registerAdmin adminId bytes id taken => cases h; exact .adminRegistered
  | beginCode code clientId redirectUri scope iri =>
    rw [ceremonyStep] at h
    split at h
    · cases h; exact .stopped
    · cases h; exact .codeBegun
  | insertCode code pending => cases h; exact .codeInserted
  | takeCode code clientId =>
    rw [ceremonyStep] at h
    split at h
    · cases h; exact .stopped
    · next pending hpending => cases h; exact .codeTaken hpending
  | checkCode code clientId pending =>
    rw [ceremonyStep] at h
    split at h
    · next haccepted => cases h; exact .codeChecked haccepted
    · cases h; exact .stopped
  | readApp code clientId pending checkedAt =>
    rw [ceremonyStep] at h
    split at h
    · cases h; exact .stopped
    · cases h; exact .appRead
  | issueCodeToken code clientId pending checkedAt app => cases h; exact .codeTokenIssued
  | done reply => cases h

/-! ## A call alone -/

/-- The provider after a call of the sequential functions. -/
def callAlone : CeremonyCall → PasskeyProvider
  | .tick _ => s.prov
  | .beginRegistration iri bytes id => (s.prov.beginRegistration env s.now iri bytes id).2
  | .completeRegistration id response => (s.prov.completeRegistration env s.now id response).2
  | .beginAuthentication iri bytes id => (s.prov.beginAuthentication env s.now iri bytes id).2
  | .completeAuthentication id response => (s.prov.completeAuthentication env s.now id response).2
  | .enrollWithToken token adminId bytes id =>
    (s.prov.enrollWithToken env s.now token adminId bytes id).2
  | .beginAuthorizationCode code clientId redirectUri scope iri =>
    (s.withCore
      (s.prov.core.beginAuthorizationCode s.now code clientId redirectUri scope iri).2).prov
  | .exchangeAuthorizationCode code clientId _ =>
    (s.withCore (s.prov.core.exchangeAuthorizationCode env.iam s.now code clientId).2).prov

/-- The provider after the rest of a call, undisturbed. -/
def finish : CeremonyTask → PasskeyProvider
  | .tick _ => s.prov
  | .beginRegistration iri bytes id _ => (s.prov.beginRegistration env s.now iri bytes id).2
  | .beginAuthentication iri bytes id => (s.prov.beginAuthentication env s.now iri bytes id).2
  | .insertChallenge id pending _ _ => s.prov.insertChallenge id pending
  | .takeRegistration id response => (s.prov.completeRegistration env s.now id response).2
  | .checkRegistration _ pending response =>
    match PasskeyProvider.checkChallenge .registration s.now pending with
    | .error _ => s.prov
    | .ok () =>
      match PasskeyProvider.newPasskey env s.now response with
      | .error _ => s.prov
      | .ok passkey =>
        (s.prov.storePasskey pending.identityIri passkey).ensureIdentity pending.identityIri
  | .storePasskey _ pending _ passkey =>
    (s.prov.storePasskey pending.identityIri passkey).ensureIdentity pending.identityIri
  | .lookUpIdentity iri _ => s.prov.ensureIdentity iri
  | .registerIdentity iri _ => s.prov.registerIdentity iri []
  | .takeAuthentication id response => (s.prov.completeAuthentication env s.now id response).2
  | .checkAuthentication _ pending response =>
    match PasskeyProvider.checkChallenge .authentication s.now pending with
    | .error _ => s.prov
    | .ok () =>
      match PasskeyProvider.matchPasskey env (s.prov.passkeys pending.identityIri.value)
          pending.challengeBytes response with
      | .error _ => s.prov
      | .ok _ => s.prov.touchPasskey s.now pending.identityIri response.credentialId
  | .readPasskeys _ pending _ response =>
    match PasskeyProvider.matchPasskey env (s.prov.passkeys pending.identityIri.value)
        pending.challengeBytes response with
    | .error _ => s.prov
    | .ok _ => s.prov.touchPasskey s.now pending.identityIri response.credentialId
  | .touchPasskey _ pending _ response =>
    s.prov.touchPasskey s.now pending.identityIri response.credentialId
  | .takeEnrollmentToken token adminId bytes id =>
    (s.prov.enrollWithToken env s.now token adminId bytes id).2
  | .registerAdmin adminId bytes id _ =>
    let iri : ResourceIri := ⟨env.iam.iris.resource "platform" "identities" adminId.display⟩
    ((s.prov.registerIdentity iri ["admin"]).beginRegistration env s.now iri bytes id).2
  | .beginCode code clientId redirectUri scope iri =>
    (s.withCore
      (s.prov.core.beginAuthorizationCode s.now code clientId redirectUri scope iri).2).prov
  | .insertCode code pending => (s.setCode code (some pending)).prov
  | .takeCode code clientId =>
    (s.withCore (s.prov.core.exchangeAuthorizationCode env.iam s.now code clientId).2).prov
  | .issueToken .. | .checkCode .. | .readApp .. | .issueCodeToken .. | .done _ => s.prov

variable {env s}

theorem redeem_state (code clientId : String) {pending : PendingAuthorizationCode}
    (h : s.prov.core.pendingAuthCodes code = some pending) :
    s.withCore (s.prov.core.exchangeAuthorizationCode env.iam s.now code clientId).2 =
      s.setCode code none := by
  rw [LocalIdentityProvider.exchangeAuthorizationCode, h]
  rfl

/-- A step leads its task to where finishing it alone would have led. -/
theorem finish_ceremonyStep {s' : CeremonyState} {t t' : CeremonyTask}
    (h : s.ceremonyStep env t = some (s', t')) : s'.finish env t' = s.finish env t := by
  cases t with
  | tick now => cases h; rfl
  | beginRegistration iri bytes id taken => cases h; rfl
  | beginAuthentication iri bytes id =>
    rw [ceremonyStep] at h
    rw [finish, PasskeyProvider.beginAuthentication]
    split at h
    · next hnone => cases h; simp only [if_pos hnone]; rfl
    · next hsome => cases h; simp only [if_neg hsome]; rfl
  | insertChallenge id pending reply taken => cases h; rfl
  | takeRegistration id response =>
    rw [ceremonyStep] at h
    split at h
    · next hnone => cases h; rw [finish, PasskeyProvider.completeRegistration, hnone]; rfl
    · next pending hsome =>
      cases h
      rw [finish, PasskeyProvider.completeRegistration, hsome, finish]
      dsimp only
      cases PasskeyProvider.checkChallenge .registration s.now pending with
      | error e => rfl
      | ok u => cases PasskeyProvider.newPasskey env s.now response <;> rfl
  | checkRegistration id pending response =>
    rw [ceremonyStep] at h
    rw [finish]
    split at h
    · cases h; rfl
    · split at h <;> (cases h; rfl)
  | storePasskey id pending checkedAt passkey => cases h; rfl
  | lookUpIdentity iri passkey =>
    rw [ceremonyStep] at h
    rw [finish, PasskeyProvider.ensureIdentity]
    split at h
    · next hnone => cases h; rw [if_pos hnone]; rfl
    · next hsome => cases h; rw [if_neg hsome]; rfl
  | registerIdentity iri passkey => cases h; rfl
  | takeAuthentication id response =>
    rw [ceremonyStep] at h
    split at h
    · next hnone => cases h; rw [finish, PasskeyProvider.completeAuthentication, hnone]; rfl
    · next pending hsome =>
      cases h
      rw [finish, PasskeyProvider.completeAuthentication, hsome, finish]
      dsimp only
      cases PasskeyProvider.checkChallenge .authentication s.now pending with
      | error e => rfl
      | ok u =>
        -- the challenges are no part of what the signature is checked against
        show (match PasskeyProvider.matchPasskey env (s.prov.passkeys pending.identityIri.value)
          pending.challengeBytes response with | .error _ => _ | .ok _ => _) = _
        cases PasskeyProvider.matchPasskey env (s.prov.passkeys pending.identityIri.value)
          pending.challengeBytes response <;> rfl
  | checkAuthentication id pending response =>
    rw [ceremonyStep] at h
    rw [finish]
    split at h <;> (cases h; rfl)
  | readPasskeys id pending checkedAt response =>
    rw [ceremonyStep] at h
    rw [finish]
    split at h <;> (cases h; rfl)
  | touchPasskey id pending checkedAt response => cases h; rfl
  | issueToken id pending checkedAt => cases h; rfl
  | takeEnrollmentToken token adminId bytes id =>
    rw [ceremonyStep] at h
    split at h
    · next htake => cases h; rw [finish, PasskeyProvider.enrollWithToken, htake]; rfl
    · next stored prov htake =>
      rw [finish, PasskeyProvider.enrollWithToken, htake]
      dsimp only
      rw [PasskeyProvider.enrollee]
      cases htarget : stored.targetIdentity with
      | some iri => rw [htarget] at h; cases h; rfl
      | none => rw [htarget] at h; cases h; rfl
  | registerAdmin adminId bytes id taken => cases h; rfl
  | beginCode code clientId redirectUri scope iri =>
    rw [ceremonyStep] at h
    split at h
    · next hnone => cases h; rw [finish, LocalIdentityProvider.beginAuthorizationCode, hnone]; rfl
    · next hsome => cases h; rw [finish, LocalIdentityProvider.beginAuthorizationCode, hsome]; rfl
  | insertCode code pending => cases h; rfl
  | takeCode code clientId =>
    rw [ceremonyStep] at h
    split at h
    · next hnone =>
      cases h
      rw [finish, LocalIdentityProvider.exchangeAuthorizationCode, hnone]
      rfl
    · next pending hsome =>
      cases h
      rw [finish, redeem_state code clientId hsome]
      rfl
  | checkCode code clientId pending =>
    rw [ceremonyStep] at h
    split at h <;> (cases h; rfl)
  | readApp code clientId pending checkedAt =>
    rw [ceremonyStep] at h
    split at h <;> (cases h; rfl)
  | issueCodeToken code clientId pending checkedAt app => cases h; rfl
  | done reply => cases h

/-- A call that is executed alone to its end leaves the provider that the sequential call leaves. -/
theorem prov_of_alone {c : CeremonyCall} {k : ℕ} {p : Pool CeremonyState CeremonyTask}
    (hrun : runSteps (ceremonyNext env) ⟨s, [c.enter]⟩ (List.replicate k (.step 0)) = some p)
    (hdone : ∀ t ∈ p.tasks, ∃ reply, t = .done reply) : p.shared.prov = s.callAlone env c := by
  obtain ⟨t, htasks, hfinish⟩ :=
    Pool.finish_of_alone (fun _ _ _ _ hstep => finish_ceremonyStep hstep) hrun
  obtain ⟨reply, rfl⟩ := hdone t (by rw [htasks]; exact List.mem_singleton_self t)
  calc p.shared.prov = p.shared.finish env (.done reply) := rfl
    _ = s.finish env c.enter := hfinish
    _ = s.callAlone env c := by cases c <;> rfl

end CeremonyState

end Picloud
