import Picloud.Iam.Passkeys

/-!
# Assertions and their challenges

An authentication response that is accepted for two challenges can be replayed. The HMAC format and
the `webauthn` format without client data sign the challenge itself. With client data the response
brings the text that is signed, and the challenge in it is not compared with the pending one: such a
response is accepted for every challenge as soon as its signature is valid. Without client data a
response is bound as long as its signature is valid for one message only, which ECDSA does not grant
for a key that its holder has chosen for two messages.
-/

namespace Picloud

open Lib

/-! ## What is claimed, and the condition -/

/-- What is assumed of the cryptography: base64 can be read back, hashes and tags do not collide. -/
structure PasskeyCrypto.Ideal (crypto : PasskeyCrypto) : Prop where
  decode_encode : ∀ bytes, crypto.decode (crypto.encode bytes) = some bytes
  sha256_inj : Function.Injective crypto.sha256
  hmac_inj : ∀ key, Function.Injective (crypto.hmac key)

/-- In some run the response is accepted for the pending challenge, by a passkey with the given
key. -/
def AcceptedFor (env : PasskeyEnv) (pk : Bytes) (response : AuthenticationResponse)
    (pending : PendingChallenge) : Prop :=
  ∃ (s : PasskeyProvider) (now : ℤ) (challengeId : String) (passkey : RegisteredPasskey)
    (token : AccessToken),
    s.pendingChallenges challengeId = some pending ∧
    (s.passkeys pending.identityIri.value).find? (·.credentialId = response.credentialId) =
      some passkey ∧ passkey.publicKey = pk ∧
    (s.completeAuthentication env now challengeId response).1 = .ok token

/-- The response is accepted for challenges of an identity with the same bytes only. -/
def BoundToChallenge (env : PasskeyEnv) (pk : Bytes) (response : AuthenticationResponse) : Prop :=
  ∀ c₁ c₂ : PendingChallenge, c₁.identityIri = c₂.identityIri → AcceptedFor env pk response c₁ →
    AcceptedFor env pk response c₂ → c₁.challengeBytes = c₂.challengeBytes

/-- The response has client data, and its signature is valid for the data that it brings along. -/
def SelfSigned (crypto : PasskeyCrypto) (pk : Bytes) (response : AuthenticationResponse) : Prop :=
  ∃ authData clientData, response.authenticatorData.bind crypto.decode = some authData ∧
    response.clientDataJson.bind crypto.decode = some clientData ∧
    checkEcdsa crypto pk (authData ++ crypto.sha256 clientData) response.signature = .ok ()

/-- The response has no client data, and its signature is valid for two messages that end in the
hash of some challenge bytes. Who holds the private key can choose an ECDSA key and signature so. -/
def SignsTwo (crypto : PasskeyCrypto) (pk : Bytes) (response : AuthenticationResponse) : Prop :=
  response.clientDataJson = none ∧ ∃ authData b₁ b₂,
    response.authenticatorData.bind crypto.decode = some authData ∧
    authData ++ crypto.sha256 b₁ ≠ authData ++ crypto.sha256 b₂ ∧
    checkEcdsa crypto pk (authData ++ crypto.sha256 b₁) response.signature = .ok () ∧
    checkEcdsa crypto pk (authData ++ crypto.sha256 b₂) response.signature = .ok ()

/-! ## When a response is accepted -/

section Accepted

variable {env : PasskeyEnv} {pk : Bytes} {response : AuthenticationResponse}
  {pending : PendingChallenge}

theorem checkChallenge_eq_ok {kind : ChallengeKind} {now : ℤ} :
    PasskeyProvider.checkChallenge kind now pending = .ok () ↔
      pending.kind = kind ∧ now < pending.expiresAt := by
  unfold PasskeyProvider.checkChallenge
  by_cases hkind : pending.kind = kind
  · by_cases hexp : now ≥ pending.expiresAt
    · simp [hkind, hexp]
    · simp [hkind, hexp, not_le.mp hexp]
  · simp [hkind]

/-- A response is accepted for a challenge exactly when the challenge is one for authentication and
the signature is checked successfully. -/
theorem acceptedFor_iff : AcceptedFor env pk response pending ↔
    pending.kind = .authentication ∧
      checkSignature env.crypto pk pending.challengeBytes response = .ok () := by
  constructor
  · rintro ⟨s, now, challengeId, passkey, token, hpending, hfind, rfl, hok⟩
    simp only [PasskeyProvider.completeAuthentication, hpending] at hok
    cases hcheck : PasskeyProvider.checkChallenge .authentication now pending with
    | error e =>
      rw [hcheck] at hok
      cases hok
    | ok u =>
      simp only [hcheck, PasskeyProvider.matchPasskey, hfind] at hok
      cases hsig : checkSignature env.crypto passkey.publicKey pending.challengeBytes response with
      | error e =>
        rw [hsig] at hok
        cases hok
      | ok u => exact ⟨(checkChallenge_eq_ok.mp hcheck).1, rfl⟩
  · rintro ⟨hkind, hsig⟩
    let passkey : RegisteredPasskey := ⟨response.credentialId, pk, none, 0, none, none⟩
    let s : PasskeyProvider :=
      ⟨.new (fun _ => none) [], fun _ => [passkey], fun _ => some pending, fun _ => none⟩
    have hcheck : PasskeyProvider.checkChallenge .authentication (pending.expiresAt - 1) pending =
        .ok () := checkChallenge_eq_ok.mpr ⟨hkind, by omega⟩
    have hfind : [passkey].find? (·.credentialId = response.credentialId) = some passkey := by
      simp [passkey]
    have hmatch : PasskeyProvider.matchPasskey env [passkey] pending.challengeBytes response =
        .ok passkey := by
      rw [PasskeyProvider.matchPasskey, hfind]
      simp only [passkey, hsig]
    have hok : (s.completeAuthentication env (pending.expiresAt - 1) "challenge" response).1 =
        .ok (((s.removeChallenge "challenge").touchPasskey (pending.expiresAt - 1)
          pending.identityIri response.credentialId).core.issueToken env.iam
            (pending.expiresAt - 1) pending.identityIri none) := by
      simp only [PasskeyProvider.completeAuthentication, s, hcheck, hmatch]
    exact ⟨s, pending.expiresAt - 1, "challenge", passkey, _, rfl, hfind, rfl, hok⟩

variable {crypto : PasskeyCrypto}

/-- What the `webauthn` format checks. -/
theorem checkWebauthn_eq_ok {challengeBytes : Bytes}
    (h : checkWebauthn crypto pk challengeBytes response = .ok ()) :
    SelfSigned crypto pk response ∨ ∃ authData,
      response.authenticatorData.bind crypto.decode = some authData ∧
        response.clientDataJson = none ∧
        checkEcdsa crypto pk (authData ++ crypto.sha256 challengeBytes) response.signature =
          .ok () := by
  unfold checkWebauthn at h
  split at h
  · cases h
  · rename_i authData hauth
    cases hcdj : response.clientDataJson with
    | none =>
      rw [hcdj] at h
      exact Or.inr ⟨authData, hauth, rfl, h⟩
    | some cdj =>
      simp only [hcdj, clientDataHash] at h
      cases hdecode : crypto.decode cdj with
      | none =>
        rw [hdecode] at h
        cases h
      | some clientData =>
        rw [hdecode] at h
        exact Or.inl ⟨authData, clientData, hauth, by rw [hcdj]; exact hdecode, h⟩

/-- A response that signs its own data passes for every challenge. -/
theorem checkWebauthn_of_selfSigned (h : SelfSigned crypto pk response) (challengeBytes : Bytes) :
    checkWebauthn crypto pk challengeBytes response = .ok () := by
  obtain ⟨authData, clientData, hauth, hclient, hcheck⟩ := h
  obtain ⟨cdj, hcdj, hdecode⟩ := Option.bind_eq_some_iff.mp hclient
  simp only [checkWebauthn, hauth, hcdj, clientDataHash, hdecode]
  exact hcheck

/-- Without client data the hash of the challenge is what must be signed. -/
theorem checkWebauthn_of_noClientData {authData challengeBytes : Bytes}
    (hauth : response.authenticatorData.bind crypto.decode = some authData)
    (hnone : response.clientDataJson = none)
    (hcheck : checkEcdsa crypto pk (authData ++ crypto.sha256 challengeBytes) response.signature =
      .ok ()) : checkWebauthn crypto pk challengeBytes response = .ok () := by
  simp only [checkWebauthn, hauth, hnone, clientDataHash]
  exact hcheck

end Accepted

/-! ## The binding -/

theorem encode_injective {crypto : PasskeyCrypto} (hideal : crypto.Ideal) :
    Function.Injective crypto.encode := by
  intro a b h
  have hdecode := congrArg crypto.decode h
  rw [hideal.decode_encode, hideal.decode_encode] at hdecode
  exact Option.some.inj hdecode

/-- A response that is checked successfully for two challenges is not bound to its challenge. -/
theorem not_bound_of_two {env : PasskeyEnv} {pk : Bytes} {response : AuthenticationResponse}
    {b₁ b₂ : Bytes} (hne : b₁ ≠ b₂) (h₁ : checkSignature env.crypto pk b₁ response = .ok ())
    (h₂ : checkSignature env.crypto pk b₂ response = .ok ()) :
    ¬ BoundToChallenge env pk response := by
  intro hbound
  let challenge (bytes : Bytes) : PendingChallenge :=
    ⟨⟨"https://picloud.local/platform/identities/alice"⟩, bytes, .authentication, 0⟩
  exact hne (hbound (challenge b₁) (challenge b₂) rfl (acceptedFor_iff.mpr ⟨rfl, h₁⟩)
    (acceptedFor_iff.mpr ⟨rfl, h₂⟩))

/-- **A response is bound to its challenge exactly when it is no `webauthn` response that signs its
own client data, or that has none and a signature valid for two messages.** -/
theorem bound_to_challenge_iff (env : PasskeyEnv) (hideal : env.crypto.Ideal) (pk : Bytes)
    (response : AuthenticationResponse) : BoundToChallenge env pk response ↔
      ¬ (response.signatureFormat = "webauthn" ∧
        (SelfSigned env.crypto pk response ∨ SignsTwo env.crypto pk response)) := by
  constructor
  · rintro hbound ⟨hformat, hsigned | ⟨hnone, authData, b₁, b₂, hauth, hne, h₁, h₂⟩⟩
    · have hchecked : ∀ bytes, checkSignature env.crypto pk bytes response = .ok () := by
        intro bytes
        rw [checkSignature, if_pos hformat]
        exact checkWebauthn_of_selfSigned hsigned bytes
      have hne : List.replicate 32 (0 : UInt8) ≠ List.replicate 32 1 := by decide
      exact not_bound_of_two hne (hchecked _) (hchecked _) hbound
    · have hbytes : b₁ ≠ b₂ := fun h => hne (by rw [h])
      refine not_bound_of_two hbytes ?_ ?_ hbound
      · rw [checkSignature, if_pos hformat]
        exact checkWebauthn_of_noClientData hauth hnone h₁
      · rw [checkSignature, if_pos hformat]
        exact checkWebauthn_of_noClientData hauth hnone h₂
  · intro hfree c₁ c₂ _ h₁ h₂
    have h₁ := (acceptedFor_iff.mp h₁).2
    have h₂ := (acceptedFor_iff.mp h₂).2
    by_cases hformat : response.signatureFormat = "webauthn"
    · rw [checkSignature, if_pos hformat] at h₁ h₂
      have hnot : ¬ SelfSigned env.crypto pk response := fun h => hfree ⟨hformat, Or.inl h⟩
      obtain ⟨authData, hauth, hnone, hecdsa⟩ := (checkWebauthn_eq_ok h₁).resolve_left hnot
      obtain ⟨authData', hauth', -, hecdsa'⟩ := (checkWebauthn_eq_ok h₂).resolve_left hnot
      obtain rfl : authData = authData' := Option.some.inj (hauth.symm.trans hauth')
      by_contra hbytes
      have hmessages : authData ++ env.crypto.sha256 c₁.challengeBytes ≠
          authData ++ env.crypto.sha256 c₂.challengeBytes :=
        fun h => hbytes (hideal.sha256_inj (List.append_cancel_left h))
      exact hfree ⟨hformat, Or.inr ⟨hnone, authData, _, _, hauth, hmessages, hecdsa, hecdsa'⟩⟩
    · rw [checkSignature, if_neg hformat, checkHmac] at h₁ h₂
      split_ifs at h₁ h₂ with hne hne'
      have hsame : env.crypto.encode (env.crypto.hmac pk c₁.challengeBytes) =
          env.crypto.encode (env.crypto.hmac pk c₂.challengeBytes) :=
        (not_not.mp hne).symm.trans (not_not.mp hne')
      exact hideal.hmac_inj pk (encode_injective hideal hsame)

/-! ## A response that is bound, and one that is not -/

/-- The HMAC-SHA256 of 32 bytes `1` under a key of 32 bytes `0`. -/
def sampleTag : Bytes :=
  [128, 160, 157, 227, 191, 227, 13, 169, 1, 22, 229, 136, 173, 226, 248, 18, 212, 155, 85, 98, 91,
    232, 180, 171, 191, 247, 117, 250, 90, 90, 116, 233]

/-- Its base64 text. -/
def sampleTagText : String := "gKCd47_jDakBFuWIreL4EtSbVWJb6LSrv_d1-lpadOk"

/-- The bytes of other texts, which begin with a character that base64 does not use. -/
def sampleText (bytes : Bytes) : String :=
  String.ofList ('=' :: bytes.map fun byte => Char.ofNat (byte.toNat + 256))

/-- The bytes that a text stands for. -/
def sampleDecode (text : String) : Option Bytes :=
  match text.toList with
  | '=' :: cs => some (cs.map fun c => UInt8.ofNat (c.toNat - 256))
  | _ => if text = sampleTagText then some sampleTag else none

/-- Bytes that no hash or tag of 32 bytes is equal to. -/
def padded (bytes : Bytes) : Bytes := List.replicate 33 0 ++ bytes

/-- Cryptography that agrees with the real one on the tag above; a signature is its message. -/
def sampleCrypto : PasskeyCrypto where
  encode bytes := if bytes = sampleTag then sampleTagText else sampleText bytes
  decode := sampleDecode
  sha256 := padded
  hmac key message := if key = List.replicate 32 0 ∧ message = List.replicate 32 1 then sampleTag
    else padded message
  cbor _ := none
  pointError _ _ := none
  derError _ := none
  verify _ _ message signature := message = signature

theorem sampleDecode_sampleText (bytes : Bytes) : sampleDecode (sampleText bytes) = some bytes := by
  have hbyte : ∀ byte : UInt8, UInt8.ofNat ((Char.ofNat (byte.toNat + 256)).toNat - 256) = byte := by
    intro byte
    have hlt := byte.toNat_lt
    have hvalid : (byte.toNat + 256).isValidChar := Or.inl (by omega)
    have hchar : (Char.ofNat (byte.toNat + 256)).toNat = byte.toNat + 256 := by
      rw [Char.ofNat, dif_pos hvalid]
      rfl
    rw [hchar, Nat.add_sub_cancel, UInt8.ofNat_toNat]
  simp [sampleDecode, sampleText, Function.comp_def, hbyte]

theorem sampleCrypto_ideal : sampleCrypto.Ideal where
  decode_encode bytes := by
    by_cases h : bytes = sampleTag
    · subst h
      decide +kernel
    · simp [sampleCrypto, h, sampleDecode_sampleText]
  sha256_inj _ _ h := List.append_cancel_left h
  hmac_inj key m m' h := by
    have hlen : ∀ m, sampleTag ≠ padded m := by
      intro m heq
      have hlength := congrArg List.length heq
      rw [padded, List.length_append, List.length_replicate] at hlength
      have htag : sampleTag.length = 32 := rfl
      omega
    simp only [sampleCrypto] at h
    split_ifs at h with hm hm' hm'
    · rw [hm.2, hm'.2]
    · exact absurd h (hlen m')
    · exact absurd h.symm (hlen m)
    · exact List.append_cancel_left h

/-- A provider with this cryptography. -/
def samplePasskeyEnv : PasskeyEnv := ⟨LocalIdentityProvider.sampleIam, sampleCrypto⟩

/-- A challenge for a user. -/
def sampleChallenge (byte : UInt8) : PendingChallenge :=
  ⟨⟨"https://picloud.local/platform/identities/alice"⟩, List.replicate 32 byte, .authentication, 300⟩

/-- A response in the HMAC format. -/
def hmacResponse : AuthenticationResponse := ⟨"cred-001", sampleTagText, none, none, "hmac"⟩

/-- The response is accepted for its challenge, and for no other one. -/
theorem hmac_response_bound :
    AcceptedFor samplePasskeyEnv (List.replicate 32 0) hmacResponse (sampleChallenge 1) ∧
      BoundToChallenge samplePasskeyEnv (List.replicate 32 0) hmacResponse := by
  refine ⟨acceptedFor_iff.mpr ⟨rfl, ?_⟩, ?_⟩
  · rfl
  · refine (bound_to_challenge_iff samplePasskeyEnv sampleCrypto_ideal _ hmacResponse).mpr ?_
    rintro ⟨hformat, -⟩
    exact absurd hformat (by decide)

/-- A response with authenticator data and client data, signed over both. -/
def capturedResponse : AuthenticationResponse where
  credentialId := "cred-001"
  signature := sampleText ([1, 2, 3] ++ padded [4, 5])
  authenticatorData := some (sampleText [1, 2, 3])
  clientDataJson := some (sampleText [4, 5])
  signatureFormat := "webauthn"

/-- The response is accepted for two different challenges of an identity. -/
theorem captured_response_replayed : sampleCrypto.Ideal ∧
    AcceptedFor samplePasskeyEnv (List.replicate 64 0) capturedResponse (sampleChallenge 1) ∧
    AcceptedFor samplePasskeyEnv (List.replicate 64 0) capturedResponse (sampleChallenge 2) ∧
    ¬ BoundToChallenge samplePasskeyEnv (List.replicate 64 0) capturedResponse := by
  have haccepted : ∀ byte, AcceptedFor samplePasskeyEnv (List.replicate 64 0) capturedResponse
      (sampleChallenge byte) := by
    intro byte
    refine acceptedFor_iff.mpr ⟨rfl, ?_⟩
    have hformat : capturedResponse.signatureFormat = "webauthn" := rfl
    rw [checkSignature, if_pos hformat]
    refine checkWebauthn_of_selfSigned ⟨[1, 2, 3], [4, 5], ?_, ?_, ?_⟩ _
    · exact sampleDecode_sampleText [1, 2, 3]
    · exact sampleDecode_sampleText [4, 5]
    · have hsignature : capturedResponse.signature = sampleText ([1, 2, 3] ++ padded [4, 5]) := rfl
      simp only [checkEcdsa, samplePasskeyEnv, sampleCrypto, hsignature, sampleDecode_sampleText]
      rfl
  refine ⟨sampleCrypto_ideal, haccepted 1, haccepted 2, fun hbound => ?_⟩
  have hsame := hbound (sampleChallenge 1) (sampleChallenge 2) rfl (haccepted 1) (haccepted 2)
  exact absurd hsame (by decide)

end Picloud
