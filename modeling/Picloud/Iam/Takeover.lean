import Picloud.Iam.ChallengeBinding
import Picloud.Iam.Endpoints
import Picloud.Lib.Base64

/-!
# Account takeover

Whoever completes a registration of an identity can log in as it. `handle_register_begin` and
`handle_admin_reset` begin a registration of any identity for anyone: no handler of the passkeys asks
who is calling. Without these two an outsider does not get a token for somebody else (`takeover_free`).
-/

namespace Picloud

open Lib

/-! ## What is claimed, and the condition -/

/-- The identity has a passkey, or roles are registered for it. -/
def PasskeyProvider.Registered (prov : PasskeyProvider) (u : ResourceIri) : Prop :=
  prov.passkeys u.value ≠ [] ∨ ∃ roles, prov.core.identities u.value = some roles

/-- A response that none of the identity's keys has signed, for any challenge. -/
def Unsigned (crypto : PasskeyCrypto) (passkeys : List RegisteredPasskey)
    (response : AuthenticationResponse) : Prop :=
  ∀ p ∈ passkeys, ∀ challengeBytes,
    checkSignature crypto p.publicKey challengeBytes response ≠ .ok ()

/-- The challenge is no registration of the identity that is pending. -/
def PasskeyProvider.NotPending (prov : PasskeyProvider) (u : ResourceIri) (id : String) : Prop :=
  ∀ pending, prov.pendingChallenges id = some pending → pending.kind = .registration →
    pending.identityIri ≠ u

/-- The identity that a bootstrap token makes. -/
def PasskeyEnv.adminIri (env : PasskeyEnv) (adminId : Uuid) : ResourceIri :=
  ⟨env.iam.iris.resource "platform" "identities" adminId.display⟩

/-- A request that needs nothing of what the identity has at the start: no enrollment token for it, no
signature of its keys and no challenge of a registration that is pending for it. The name of a new
admin is new. -/
def PasskeyRequest.FromOutside (env : PasskeyEnv) (start : PasskeyProvider) (u : ResourceIri) :
    PasskeyRequest → Prop
  | .enroll token adminId _ _ =>
    (∀ stored, start.enrollmentTokens token = some stored → stored.targetIdentity ≠ some u) ∧
      ¬ start.Registered (env.adminIri adminId)
  | .loginComplete _ response => Unsigned env.crypto (start.passkeys u.value) response
  | .registerComplete id _ => start.NotPending u id
  | .registerBegin .. | .loginBegin .. | .adminReset .. => True

/-- What is claimed of a schedule: if the identity is registered at the start and all the requests come
from an outsider, no request returns a token for the identity. -/
def TakeoverFree (srv : PasskeyServer) (start : PasskeyProvider) (now : ℤ) (u : ResourceIri)
    (schedule : List (Pool.Act EndpointInput)) : Prop :=
  start.Registered u → (∀ req ∈ requestsOf schedule, req.FromOutside srv.env start u) →
    ∀ final, runSteps (endpointsNext srv) ⟨⟨start, now, []⟩, []⟩ schedule = some final →
      ∀ req token, .handled req (.done (.token token)) ∈ final.tasks →
        token.claims.identityIri ≠ u.value

/-- A request to begin a registration of the identity. -/
def PasskeyRequest.BeginsRegistration (srv : PasskeyServer) (u : ResourceIri) :
    PasskeyRequest → Prop
  | .registerBegin text _ _ => srv.registerIri text = u.value
  | .adminReset username _ _ => srv.userIri (username.getD "") = u.value
  | _ => False

/-! ## What an outsider leaves as it is -/

/-- The identity has the keys that it had at the start, a registration of it that is pending was
pending at the start, and the enrollment tokens are those of the start. -/
structure PasskeyProvider.Kept (start : PasskeyProvider) (u : ResourceIri)
    (prov : PasskeyProvider) : Prop where
  keys : ∀ p ∈ prov.passkeys u.value, ∃ p₀ ∈ start.passkeys u.value, p₀.publicKey = p.publicKey
  challenges : ∀ id pending, prov.pendingChallenges id = some pending →
    pending.kind = .registration → pending.identityIri = u →
      start.pendingChallenges id = some pending
  tokens : ∀ token stored, prov.enrollmentTokens token = some stored →
    ∃ stored₀, start.enrollmentTokens token = some stored₀ ∧
      stored₀.targetIdentity = stored.targetIdentity

/-- A reply that is no token for the identity. -/
def CeremonyReply.Apart (u : ResourceIri) : CeremonyReply → Prop
  | .token issued => issued.claims.identityIri ≠ u.value
  | _ => True

/-- A task that does not work for the identity. -/
def CeremonyTask.Apart (env : PasskeyEnv) (start : PasskeyProvider) (u : ResourceIri) :
    CeremonyTask → Prop
  | .beginRegistration iri _ _ _ => iri ≠ u
  | .insertChallenge _ pending reply _ =>
    (pending.kind = .registration → pending.identityIri ≠ u) ∧ reply.Apart u
  | .takeRegistration id _ => start.NotPending u id
  | .checkRegistration _ pending _ => pending.kind = .registration → pending.identityIri ≠ u
  | .storePasskey _ pending _ _ | .touchPasskey _ pending _ _ | .issueToken _ pending _ =>
    pending.identityIri ≠ u
  | .takeAuthentication _ response | .checkAuthentication _ _ response
  | .readPasskeys _ _ _ response => Unsigned env.crypto (start.passkeys u.value) response
  | .takeEnrollmentToken token adminId _ _ =>
    (∀ stored, start.enrollmentTokens token = some stored → stored.targetIdentity ≠ some u) ∧
      env.adminIri adminId ≠ u
  | .registerAdmin adminId _ _ _ => env.adminIri adminId ≠ u
  | .done reply => reply.Apart u
  | _ => True

namespace PasskeyProvider

variable {start prov : PasskeyProvider} {u : ResourceIri}

theorem kept_start (start : PasskeyProvider) (u : ResourceIri) : Kept start u start where
  keys p hp := ⟨p, hp, rfl⟩
  challenges _ _ h _ _ := h
  tokens _ stored h := ⟨stored, h, rfl⟩

variable {iri : ResourceIri}

theorem value_ne (h : iri ≠ u) : u.value ≠ iri.value := by
  intro heq
  obtain ⟨value⟩ := iri
  exact h (congrArg ResourceIri.mk heq).symm

theorem Kept.insertChallenge (h : Kept start u prov) {id : String} {pending : PendingChallenge}
    (hpending : pending.kind = .registration → pending.identityIri ≠ u) :
    Kept start u (prov.insertChallenge id pending) where
  keys := h.keys
  tokens := h.tokens
  challenges id' pending' hp hkind hiri := by
    by_cases hid : id' = id
    · subst hid
      obtain rfl : pending = pending' := by simpa [PasskeyProvider.insertChallenge] using hp
      exact absurd hiri (hpending hkind)
    · refine h.challenges id' pending' ?_ hkind hiri
      simpa [PasskeyProvider.insertChallenge, hid] using hp

theorem Kept.removeChallenge (h : Kept start u prov) (id : String) :
    Kept start u (prov.removeChallenge id) where
  keys := h.keys
  tokens := h.tokens
  challenges id' pending' hp hkind hiri := by
    by_cases hid : id' = id
    · subst hid
      simp [PasskeyProvider.removeChallenge] at hp
    · refine h.challenges id' pending' ?_ hkind hiri
      simpa [PasskeyProvider.removeChallenge, hid] using hp

/-- A passkey of another identity. -/
theorem Kept.storePasskey (h : Kept start u prov) (hiri : iri ≠ u) (passkey : RegisteredPasskey) :
    Kept start u (prov.storePasskey iri passkey) where
  keys p hp := by
    refine h.keys p ?_
    simpa [PasskeyProvider.storePasskey, value_ne hiri] using hp
  tokens := h.tokens
  challenges := h.challenges

/-- Using a passkey leaves its key. -/
theorem exists_of_mem_touch {now : ℤ} {credentialId : String} {passkeys : List RegisteredPasskey}
    {p : RegisteredPasskey} (h : p ∈ touch now credentialId passkeys) :
    ∃ p₀ ∈ passkeys, p₀.publicKey = p.publicKey := by
  induction passkeys with
  | nil => cases h
  | cons q ps ih =>
    rw [touch] at h
    split_ifs at h
    · rcases List.mem_cons.mp h with rfl | hold
      · exact ⟨q, List.mem_cons_self, rfl⟩
      · exact ⟨p, List.mem_cons_of_mem _ hold, rfl⟩
    · rcases List.mem_cons.mp h with rfl | hold
      · exact ⟨p, List.mem_cons_self, rfl⟩
      · obtain ⟨p₀, hmem, hkey⟩ := ih hold
        exact ⟨p₀, List.mem_cons_of_mem _ hmem, hkey⟩

theorem Kept.touchPasskey (h : Kept start u prov) (now : ℤ) (iri : ResourceIri)
    (credentialId : String) : Kept start u (prov.touchPasskey now iri credentialId) where
  keys p hp := by
    by_cases hiri : u.value = iri.value
    · have hmem : p ∈ touch now credentialId (prov.passkeys u.value) := by
        simpa [PasskeyProvider.touchPasskey, hiri] using hp
      obtain ⟨p₁, hmem, hkey⟩ := exists_of_mem_touch hmem
      obtain ⟨p₀, hstart, hkey₀⟩ := h.keys p₁ hmem
      exact ⟨p₀, hstart, hkey₀.trans hkey⟩
    · refine h.keys p ?_
      simpa [PasskeyProvider.touchPasskey, hiri] using hp
  tokens := h.tokens
  challenges := h.challenges

/-- Marking a token leaves its identity. -/
theorem Kept.takeToken (h : Kept start u prov) {now : ℤ} {token : String} {stored : EnrollmentToken}
    {prov' : PasskeyProvider} (htake : prov.takeEnrollmentToken now token = (.ok stored, prov')) :
    Kept start u prov' ∧ ∃ stored₀, start.enrollmentTokens token = some stored₀ ∧
      stored₀.targetIdentity = stored.targetIdentity := by
  obtain ⟨hstored, -, -, rfl⟩ := taken_of_takeEnrollmentToken htake
  obtain ⟨stored₀, hstart, htarget⟩ := h.tokens token stored hstored
  refine ⟨⟨h.keys, h.challenges, fun token' stored' hp => ?_⟩, stored₀, hstart, htarget⟩
  by_cases heq : token' = token
  · subst heq
    obtain rfl : { stored with used := true } = stored' := by simpa using hp
    exact ⟨stored₀, hstart, htarget⟩
  · refine h.tokens token' stored' ?_
    simpa [heq] using hp

/-- A response that is unsigned matches no passkey of the identity. -/
theorem Kept.ne_of_matchPasskey (h : Kept start u prov) {env : PasskeyEnv} {challengeBytes : Bytes}
    {response : AuthenticationResponse} {passkey : RegisteredPasskey}
    (hunsigned : Unsigned env.crypto (start.passkeys u.value) response)
    (hmatch : matchPasskey env (prov.passkeys iri.value) challengeBytes response = .ok passkey) :
    iri ≠ u := by
  rintro rfl
  rw [matchPasskey] at hmatch
  split at hmatch
  · cases hmatch
  · next p hfind =>
    obtain ⟨p₀, hstart, hkey⟩ := h.keys p (List.mem_of_find?_eq_some hfind)
    split at hmatch
    · cases hmatch
    · next hsigned =>
      rw [← hkey] at hsigned
      exact hunsigned p₀ hstart challengeBytes hsigned

end PasskeyProvider

/-! ## A step of an outsider -/

section Step

variable {env : PasskeyEnv} {start : PasskeyProvider} {u : ResourceIri} {s s' : CeremonyState}
  {t t' : CeremonyTask}

/-- A task that does not work for the identity leaves its things as they are. -/
theorem apart_step (hs : start.Kept u s.prov) (ht : t.Apart env start u)
    (h : s.ceremonyStep env t = some (s', t')) : start.Kept u s'.prov ∧ t'.Apart env start u := by
  cases t with
  | tick now => cases h; exact ⟨hs, trivial⟩
  | beginRegistration iri bytes id taken => cases h; exact ⟨hs, fun _ => ht, trivial⟩
  | beginAuthentication iri bytes id =>
    rw [CeremonyState.ceremonyStep] at h
    split at h
    · cases h; exact ⟨hs, trivial⟩
    · cases h; exact ⟨hs, ⟨fun hkind => (by cases hkind), trivial⟩⟩
  | insertChallenge id pending reply taken => cases h; exact ⟨hs.insertChallenge ht.1, ht.2⟩
  | takeRegistration id response =>
    rw [CeremonyState.ceremonyStep] at h
    split at h
    · cases h; exact ⟨hs, trivial⟩
    · next pending hpending =>
      cases h
      refine ⟨hs.removeChallenge id, fun hkind hiri => ?_⟩
      exact ht pending (hs.challenges id pending hpending hkind hiri) hkind hiri
  | checkRegistration id pending response =>
    rw [CeremonyState.ceremonyStep] at h
    split at h
    · cases h; exact ⟨hs, trivial⟩
    · next hcheck =>
      split at h
      · cases h; exact ⟨hs, trivial⟩
      · cases h; exact ⟨hs, ht (checkChallenge_eq_ok.mp hcheck).1⟩
  | storePasskey id pending checkedAt passkey => cases h; exact ⟨hs.storePasskey ht passkey, trivial⟩
  | lookUpIdentity iri passkey =>
    rw [CeremonyState.ceremonyStep] at h
    split at h <;> (cases h; exact ⟨hs, trivial⟩)
  | registerIdentity iri passkey => cases h; exact ⟨⟨hs.keys, hs.challenges, hs.tokens⟩, trivial⟩
  | takeAuthentication id response =>
    rw [CeremonyState.ceremonyStep] at h
    split at h
    · cases h; exact ⟨hs, trivial⟩
    · cases h; exact ⟨hs.removeChallenge id, ht⟩
  | checkAuthentication id pending response =>
    rw [CeremonyState.ceremonyStep] at h
    split at h
    · cases h; exact ⟨hs, trivial⟩
    · cases h; exact ⟨hs, ht⟩
  | readPasskeys id pending checkedAt response =>
    rw [CeremonyState.ceremonyStep] at h
    split at h
    · cases h; exact ⟨hs, trivial⟩
    · next passkey hmatch => cases h; exact ⟨hs, hs.ne_of_matchPasskey ht hmatch⟩
  | touchPasskey id pending checkedAt response => cases h; exact ⟨hs.touchPasskey _ _ _, ht⟩
  | issueToken id pending checkedAt =>
    cases h
    exact ⟨hs, (PasskeyProvider.value_ne ht).symm⟩
  | takeEnrollmentToken token adminId bytes id =>
    rw [CeremonyState.ceremonyStep] at h
    split at h
    · next e prov htake =>
      cases h
      rw [PasskeyProvider.prov_of_refused htake]
      exact ⟨hs, trivial⟩
    · next stored prov htake =>
      obtain ⟨hkept, stored₀, hstart, htarget⟩ := hs.takeToken htake
      split at h
      · next iri hiri =>
        cases h
        refine ⟨hkept, ?_⟩
        rintro rfl
        exact ht.1 stored₀ hstart (htarget.trans hiri)
      · cases h; exact ⟨hkept, ht.2⟩
  | registerAdmin adminId bytes id taken =>
    cases h
    exact ⟨⟨hs.keys, hs.challenges, hs.tokens⟩, ht⟩
  | beginCode code clientId redirectUri scope iri =>
    rw [CeremonyState.ceremonyStep] at h
    split at h <;> (cases h; exact ⟨hs, trivial⟩)
  | insertCode code pending => cases h; exact ⟨⟨hs.keys, hs.challenges, hs.tokens⟩, trivial⟩
  | takeCode code clientId =>
    rw [CeremonyState.ceremonyStep] at h
    split at h
    · cases h; exact ⟨hs, trivial⟩
    · cases h; exact ⟨⟨hs.keys, hs.challenges, hs.tokens⟩, trivial⟩
  | checkCode code clientId pending =>
    rw [CeremonyState.ceremonyStep] at h
    split at h <;> (cases h; exact ⟨hs, trivial⟩)
  | readApp code clientId pending checkedAt =>
    rw [CeremonyState.ceremonyStep] at h
    split at h <;> (cases h; exact ⟨hs, trivial⟩)
  | issueCodeToken code clientId pending checkedAt app => cases h; exact ⟨hs, trivial⟩
  | done reply => cases h

end Step

/-! ## Runs of an outsider -/

/-- What is kept of the task of a request. -/
def EndpointTask.Apart (env : PasskeyEnv) (start : PasskeyProvider) (u : ResourceIri) :
    EndpointTask → Prop
  | .handled _ task | .clock task => task.Apart env start u
  | .refused _ => True

section Runs

variable {srv : PasskeyServer} {start : PasskeyProvider} {u : ResourceIri}

theorem iri_of_withIri {message text : String} {f : ResourceIri → CeremonyCall} {c : CeremonyCall}
    (h : PasskeyRequest.withIri srv message text f = .ok c) : c = f ⟨text⟩ := by
  unfold PasskeyRequest.withIri PasskeyServer.newIri at h
  by_cases hurl : srv.isUrl text
  · rw [if_pos hurl] at h
    exact (Except.ok.inj h).symm
  · rw [if_neg hurl] at h
    cases h

/-- A request of an outsider that begins no registration of the identity starts a task that does not
work for it. -/
theorem apart_enter (hu : start.Registered u) {req : PasskeyRequest}
    (hout : req.FromOutside srv.env start u) (hbegins : ¬ req.BeginsRegistration srv u) :
    (EndpointTask.enter srv (.request req)).Apart srv.env start u := by
  rw [EndpointTask.enter]
  split
  · trivial
  · next c hc =>
    unfold PasskeyRequest.call at hc
    split at hc
    · cases hc
    · cases req with
      | registerBegin text bytes id =>
        rw [iri_of_withIri hc]
        rintro rfl
        exact hbegins rfl
      | registerComplete id response => cases hc; exact hout
      | loginBegin text bytes id => rw [iri_of_withIri hc]; trivial
      | loginComplete id response => cases hc; exact hout
      | enroll token adminId bytes id =>
        cases hc
        refine ⟨hout.1, ?_⟩
        rintro rfl
        exact hout.2 hu
      | adminReset username bytes id =>
        dsimp only at hc
        split at hc
        · cases hc
        · rw [iri_of_withIri hc]
          rintro rfl
          exact hbegins rfl

theorem apart_endpointStep {s s' : CeremonyState} {t t' : EndpointTask}
    (hs : start.Kept u s.prov) (ht : t.Apart srv.env start u) (h : t.step srv s = some (s', t')) :
    start.Kept u s'.prov ∧ t'.Apart srv.env start u := by
  cases t with
  | refused response => cases h
  | handled req task =>
    obtain ⟨r, hstep, hr⟩ := Option.map_eq_some_iff.mp h
    cases hr
    exact apart_step hs ht hstep
  | clock task =>
    obtain ⟨r, hstep, hr⟩ := Option.map_eq_some_iff.mp h
    cases hr
    exact apart_step hs ht hstep

/-- **An outsider who begins no registration of an identity gets no token for it.** -/
theorem takeover_free (srv : PasskeyServer) (start : PasskeyProvider) (now : ℤ) (u : ResourceIri)
    (schedule : List (Pool.Act EndpointInput))
    (h : ∀ req ∈ requestsOf schedule, ¬ req.BeginsRegistration srv u) :
    TakeoverFree srv start now u schedule := by
  intro hu hout final hrun req token hmem
  have hcalls : ∀ c, .call c ∈ schedule →
      (EndpointTask.enter srv c).Apart srv.env start u := by
    intro c hc
    cases c with
    | tick now => trivial
    | request req =>
      have hreq : req ∈ requestsOf schedule := List.mem_filterMap.mpr ⟨_, hc, rfl⟩
      exact apart_enter hu (hout req hreq) (h req hreq)
  have hfinal := Pool.forall_tasks_of_calls
    (P := fun c => (EndpointTask.enter srv c).Apart srv.env start u)
    (I := fun s : CeremonyState => start.Kept u s.prov)
    (J := fun _ t => t.Apart srv.env start u)
    (fun _ _ hc _ => hc) (fun _ _ _ _ hs ht hstep => apart_endpointStep hs ht hstep)
    (fun _ _ _ _ _ _ hm => hm) schedule _ final hcalls (PasskeyProvider.kept_start start u)
    (fun _ ht => absurd ht List.not_mem_nil) hrun
  exact hfinal.2 _ hmem

end Runs

/-! ## A takeover -/

/-- Base64 in the alphabet for URLs, without padding. -/
def urlSafeText (bytes : Bytes) : String :=
  String.ofList (((Base64.encodeBytes bytes).filter (· ≠ Base64.pad)).map fun c =>
    if c = '+' then '-' else if c = '/' then '_' else c)

/-- The bytes of such a text. -/
def urlSafeBytes (text : String) : Option Bytes :=
  let digits := text.toList.map fun c => if c = '-' then '+' else if c = '_' then '/' else c
  Base64.decodeBytes (digits ++ List.replicate ((4 - digits.length % 4) % 4) Base64.pad)

/-- A server whose HMAC agrees with the real one for the key of 32 bytes `0` and the challenge of 32
bytes `1`. -/
def takeoverServer : PasskeyServer where
  hasIam := true
  iris := ⟨"picloud.local"⟩
  isUrl := fun text => "https://".toList.isPrefixOf text.toList
  rfc3339 := fun _ => "1970-01-01T00:00:00+00:00"
  tokenText := fun token => token.signature
  env := ⟨LocalIdentityProvider.sampleIam,
    { sampleCrypto with encode := urlSafeText, decode := urlSafeBytes }⟩

/-- An administrator. -/
def aliceIri : ResourceIri := ⟨takeoverServer.userIri "alice"⟩

/-- The passkey of the administrator. -/
def alicePasskey : RegisteredPasskey :=
  ⟨"cred-alice", List.replicate 64 7, none, 0, none, none⟩

/-- The administrator has a role and a passkey. -/
def aliceProvider : PasskeyProvider where
  core := .new (fun value => if value = aliceIri.value then some ["admin"] else none) []
  passkeys value := if value = aliceIri.value then [alicePasskey] else []
  pendingChallenges _ := none
  enrollmentTokens _ := none

/-- Someone registers a key and logs in with it. -/
def registerAndLogIn (begin : PasskeyRequest) (iri : String) : List (Pool.Act EndpointInput) :=
  [.call (.request begin), .step 0, .step 0,
    .call (.request (.registerComplete "c1"
      ⟨"cred-mallory", LocalIdentityProvider.sampleSecret, none, none⟩)),
    .step 1, .step 1, .step 1, .step 1,
    .call (.request (.loginBegin iri (List.replicate 32 1) "c2")), .step 2, .step 2,
    .call (.request (.loginComplete "c2" ⟨"cred-mallory", sampleTagText, none, none, "hmac"⟩)),
    .step 3, .step 3, .step 3, .step 3, .step 3]

/-- Someone who registers an identity of their own. -/
def malloryBegins : PasskeyRequest := .registerBegin "mallory" [] "c1"

/-- Someone begins a registration of the administrator, in one of two ways. -/
def beginsForAlice : List PasskeyRequest :=
  [.registerBegin "alice" [] "c1", .adminReset (some "alice") [] "c1"]

/-- The tag is signed with the key of 32 bytes `0` only. -/
theorem unsigned_alicePasskey {id : String} : Unsigned takeoverServer.env.crypto [alicePasskey]
    ⟨id, sampleTagText, none, none, "hmac"⟩ := by
  intro p hp challengeBytes hsigned
  rw [List.mem_singleton.mp hp] at hsigned
  have hformat : ¬ "hmac" = "webauthn" := by decide
  have hkey : alicePasskey.publicKey ≠ List.replicate 32 0 := by decide
  have hhmac : takeoverServer.env.crypto.hmac alicePasskey.publicKey challengeBytes =
      padded challengeBytes := by
    simp only [takeoverServer, sampleCrypto, hkey, false_and, if_false]
  rw [checkSignature, if_neg hformat, checkHmac, hhmac] at hsigned
  split_ifs at hsigned with hne
  -- the text of the tag does not begin with the digit of a zero byte
  have hhead := congrArg (fun text => text.toList.head?) (not_not.mp hne)
  have htag : sampleTagText.toList.head? = some 'g' := by decide +kernel
  have hzero : (urlSafeText (padded challengeBytes)).toList.head? = some 'A' := by
    have hdigit : Base64.digit 0 = 'A' := by decide +kernel
    have hbytes : padded challengeBytes =
        0 :: 0 :: 0 :: (List.replicate 30 0 ++ challengeBytes) := rfl
    rw [hbytes, urlSafeText, Base64.encodeBytes]
    simp [hdigit, Base64.pad]
  exact absurd (htag.symm.trans (hhead.trans hzero)) (by decide)

theorem requestsOf_registerAndLogIn (first : PasskeyRequest) (iri : String) :
    requestsOf (registerAndLogIn first iri) = [first,
      .registerComplete "c1" ⟨"cred-mallory", LocalIdentityProvider.sampleSecret, none, none⟩,
      .loginBegin iri (List.replicate 32 1) "c2",
      .loginComplete "c2" ⟨"cred-mallory", sampleTagText, none, none, "hmac"⟩] := rfl

/-- What is sent after the first request is nothing of the administrator. -/
theorem fromOutside_registerAndLogIn {first : PasskeyRequest} {iri : String}
    (hfirst : first.FromOutside takeoverServer.env aliceProvider aliceIri) :
    ∀ req ∈ requestsOf (registerAndLogIn first iri),
      req.FromOutside takeoverServer.env aliceProvider aliceIri := by
  intro req hreq
  rw [requestsOf_registerAndLogIn] at hreq
  simp only [List.mem_cons, List.not_mem_nil, or_false] at hreq
  rcases hreq with rfl | rfl | rfl | rfl
  · exact hfirst
  · exact fun pending hpending => nomatch hpending
  · trivial
  · exact unsigned_alicePasskey

/-- The claims of the token that a request has returned. -/
def EndpointTask.returned : EndpointTask → Option TokenClaims
  | .handled _ (.done (.token token)) => some token.claims
  | _ => none

theorem registered_alice : aliceProvider.Registered aliceIri :=
  Or.inr ⟨["admin"], by simp [aliceProvider, LocalIdentityProvider.new]⟩

/-- The condition holds for someone who registers and logs in under a name of their own: the run goes to its
end, with a token for that name. -/
theorem takeover_free_mallory : aliceProvider.Registered aliceIri ∧
    (∀ req ∈ requestsOf (registerAndLogIn malloryBegins (takeoverServer.userIri "mallory")),
      req.FromOutside takeoverServer.env aliceProvider aliceIri) ∧
    (((runSteps (endpointsNext takeoverServer) ⟨⟨aliceProvider, 0, []⟩, []⟩
      (registerAndLogIn malloryBegins (takeoverServer.userIri "mallory"))).bind fun p =>
        p.tasks[3]?).bind EndpointTask.returned).map TokenClaims.identityIri =
      some (takeoverServer.userIri "mallory") ∧
    TakeoverFree takeoverServer aliceProvider 0 aliceIri
      (registerAndLogIn malloryBegins (takeoverServer.userIri "mallory")) := by
  have hname : takeoverServer.registerIri "mallory" ≠ aliceIri.value := by decide +kernel
  refine ⟨registered_alice, fromOutside_registerAndLogIn trivial, by decide +kernel, ?_⟩
  refine takeover_free takeoverServer aliceProvider 0 aliceIri _ fun req hreq => ?_
  rw [requestsOf_registerAndLogIn] at hreq
  simp only [List.mem_cons, List.not_mem_nil, or_false] at hreq
  rcases hreq with rfl | rfl | rfl | rfl
  · exact hname
  · exact id
  · exact id
  · exact id

/-- **Whoever begins a registration of an administrator gets a token of theirs.** -/
theorem takeover_by_registration : ¬ ∃ first ∈ beginsForAlice,
    TakeoverFree takeoverServer aliceProvider 0 aliceIri
      (registerAndLogIn first aliceIri.value) := by
  rintro ⟨first, hfirst, hfree⟩
  have hrun : ∀ first ∈ beginsForAlice,
      ((runSteps (endpointsNext takeoverServer) ⟨⟨aliceProvider, 0, []⟩, []⟩
        (registerAndLogIn first aliceIri.value)).bind fun p => p.tasks[3]?).bind
          EndpointTask.returned =
        some ⟨aliceIri.value, none, ["admin"], 0, 3600, none, [], [], none⟩ := by
    decide +kernel
  have houtside : first.FromOutside takeoverServer.env aliceProvider aliceIri := by
    simp only [beginsForAlice, List.mem_cons, List.not_mem_nil, or_false] at hfirst
    rcases hfirst with rfl | rfl <;> trivial
  obtain ⟨t, ht, hreturned⟩ := Option.bind_eq_some_iff.mp (hrun first hfirst)
  obtain ⟨p, hp, htask⟩ := Option.bind_eq_some_iff.mp ht
  have hfree := hfree registered_alice (fromOutside_registerAndLogIn houtside) p hp
  rw [EndpointTask.returned.eq_def] at hreturned
  split at hreturned
  · next req token =>
    refine hfree req token (List.mem_of_getElem? htask) ?_
    rw [Option.some.inj hreturned]
  · cases hreturned

end Picloud
