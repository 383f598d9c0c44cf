import Picloud.Iam.Exchange

/-!
# Passkey ceremonies

Reference: `begin_registration`, `complete_registration`, `begin_authentication`,
`complete_authentication` and `enroll_with_token` of `picloud-iam/src/implementation.rs`.

The cryptography, base64 and CBOR are parameters. A ceremony is cut where the source takes its
locks, so that each section is a function of its own; the functions of the source are the sections
one after the other.
-/

namespace Picloud

open Lib

/-! ## Data -/

/-- `PiCloudError::PasskeyChallengeFailed`. -/
structure PasskeyError where
  reason : String
deriving DecidableEq

/-- `ChallengeKind`. -/
inductive ChallengeKind where
  | registration
  | authentication
deriving DecidableEq

/-- `PendingChallenge`. -/
structure PendingChallenge where
  identityIri : ResourceIri
  challengeBytes : Bytes
  kind : ChallengeKind
  expiresAt : ℤ
deriving DecidableEq

/-- `RegisteredPasskey`. -/
structure RegisteredPasskey where
  credentialId : String
  publicKey : Bytes
  aaguid : Option String
  registeredAt : ℤ
  lastUsedAt : Option ℤ
  displayName : Option String
deriving DecidableEq

/-- `EnrollmentToken`. -/
structure EnrollmentToken where
  token : String
  expiresAt : ℤ
  used : Bool
  targetIdentity : Option ResourceIri
deriving DecidableEq

/-- `RegistrationChallenge`. -/
structure RegistrationChallenge where
  challenge : String
  rpId : String
  rpName : String
  userId : String
  userName : String
  timeoutMs : ℕ
deriving DecidableEq

/-- `AuthenticationChallenge`. -/
structure AuthenticationChallenge where
  challenge : String
  rpId : String
  allowCredentials : List String
  timeoutMs : ℕ
deriving DecidableEq

/-- `RegistrationResponse`. The attestation is not looked at. -/
structure RegistrationResponse where
  credentialId : String
  publicKey : String
  aaguid : Option String
  displayName : Option String
deriving DecidableEq

/-- `AuthenticationResponse`. -/
structure AuthenticationResponse where
  credentialId : String
  signature : String
  authenticatorData : Option String
  clientDataJson : Option String
  signatureFormat : String
deriving DecidableEq

/-- `ciborium::Value`, as far as a COSE key is read. -/
inductive CborValue where
  | integer (value : ℤ)
  | bytes (value : Bytes)
  | map (entries : List (CborValue × CborValue))
  | other

/-- What the ceremonies take from other crates. The checks of a P-256 point and of a DER signature
return the text of their error. -/
structure PasskeyCrypto where
  encode : Bytes → String
  decode : String → Option Bytes
  sha256 : Bytes → Bytes
  hmac : Bytes → Bytes → Bytes
  cbor : Bytes → Option CborValue
  pointError : Bytes → Bytes → Option String
  derError : Bytes → Option String
  /-- The public key by its coordinates, the message, the signature. -/
  verify : Bytes → Bytes → Bytes → Bytes → Bool

/-- What the provider is made with. -/
structure PasskeyEnv where
  iam : IamEnv
  crypto : PasskeyCrypto

/-- `LocalIdentityProvider`, with its tables of passkeys, challenges and enrollment tokens. -/
structure PasskeyProvider where
  core : LocalIdentityProvider
  passkeys : String → List RegisteredPasskey
  pendingChallenges : String → Option PendingChallenge
  enrollmentTokens : String → Option EnrollmentToken

/-- `challenge_ttl_secs`. -/
def challengeTtlSecs : ℕ := 300

/-! ## Public keys -/

/-- The first value under an integer key that has the form sought. -/
def findEntry {α : Type} (entries : List (CborValue × CborValue)) (key : ℤ)
    (form : CborValue → Option α) : Option α :=
  entries.findSome? fun entry =>
    match entry.1 with
    | .integer k => if k = key then form entry.2 else none
    | _ => none

/-- A CBOR integer. -/
def CborValue.asInteger : CborValue → Option ℤ
  | .integer value => some value
  | _ => none

/-- A CBOR byte string. -/
def CborValue.asBytes : CborValue → Option Bytes
  | .bytes value => some value
  | _ => none

/-- The text of `Option<i128>`. -/
def debugOption : Option ℤ → String
  | none => "None"
  | some value => "Some(" ++ toString value ++ ")"

/-- The coordinates of a CBOR-encoded COSE key. -/
def coseCoordinates (entries : List (CborValue × CborValue)) : Except PasskeyError (Bytes × Bytes) :=
  let kty := findEntry entries 1 CborValue.asInteger
  if kty ≠ some 2 then .error ⟨"COSE_Key kty is not EC2 (got " ++ debugOption kty ++ ")"⟩
  else match findEntry entries (-2) CborValue.asBytes with
    | none => .error ⟨"COSE_Key missing x coordinate (-2)"⟩
    | some x =>
      match findEntry entries (-3) CborValue.asBytes with
      | none => .error ⟨"COSE_Key missing y coordinate (-3)"⟩
      | some y =>
        if x.length ≠ 32 ∨ y.length ≠ 32 then
          .error ⟨"COSE_Key coordinate size mismatch (x=" ++ toString x.length ++ ", y=" ++
            toString y.length ++ ")"⟩
        else .ok (x, y)

/-- The coordinates of a stored public key: an uncompressed point, the bare coordinates, or a COSE
key. -/
def publicKeyCoordinates (crypto : PasskeyCrypto) (pk : Bytes) : Except PasskeyError (Bytes × Bytes) :=
  if pk.length = 65 ∧ pk.head? = some 4 then .ok ((pk.drop 1).take 32, (pk.drop 33).take 32)
  else if pk.length = 64 then .ok (pk.take 32, (pk.drop 32).take 32)
  else match crypto.cbor pk with
    | some (.map entries) => coseCoordinates entries
    | _ => .error ⟨"unsupported public key format (length=" ++ toString pk.length ++
        ", not CBOR map)"⟩

/-! ## Signatures -/

/-- The hash that stands for the client data: that of the client data, or of the challenge when the
response has none. -/
def clientDataHash (crypto : PasskeyCrypto) (challengeBytes : Bytes) :
    Option String → Except PasskeyError Bytes
  | some cdj =>
    match crypto.decode cdj with
    | none => .error ⟨"invalid client_data_json encoding"⟩
    | some bytes => .ok (crypto.sha256 bytes)
  | none => .ok (crypto.sha256 challengeBytes)

/-- The signature of a message under a stored key. -/
def checkEcdsa (crypto : PasskeyCrypto) (pk message : Bytes) (signature : String) :
    Except PasskeyError Unit :=
  match crypto.decode signature with
  | none => .error ⟨"invalid signature encoding"⟩
  | some signatureBytes =>
    match publicKeyCoordinates crypto pk with
    | .error e => .error e
    | .ok (x, y) =>
      match crypto.pointError x y with
      | some e => .error ⟨"invalid public key: " ++ e⟩
      | none =>
        match crypto.derError signatureBytes with
        | some e => .error ⟨"invalid DER signature: " ++ e⟩
        | none =>
          if crypto.verify x y message signatureBytes then .ok ()
          else .error ⟨"ECDSA signature verification failed"⟩

/-- The `webauthn` format: the authenticator data and the client data hash are signed. -/
def checkWebauthn (crypto : PasskeyCrypto) (pk challengeBytes : Bytes)
    (response : AuthenticationResponse) : Except PasskeyError Unit :=
  match response.authenticatorData.bind crypto.decode with
  | none => .error ⟨"webauthn format requires authenticator_data"⟩
  | some authData =>
    match clientDataHash crypto challengeBytes response.clientDataJson with
    | .error e => .error e
    | .ok hash => checkEcdsa crypto pk (authData ++ hash) response.signature

/-- The simplified format: the challenge is signed with the public key as an HMAC key. -/
def checkHmac (crypto : PasskeyCrypto) (pk challengeBytes : Bytes)
    (response : AuthenticationResponse) : Except PasskeyError Unit :=
  if response.signature ≠ crypto.encode (crypto.hmac pk challengeBytes) then
    .error ⟨"signature verification failed"⟩
  else .ok ()

/-- The signature of a response, by its format. -/
def checkSignature (crypto : PasskeyCrypto) (pk challengeBytes : Bytes)
    (response : AuthenticationResponse) : Except PasskeyError Unit :=
  if response.signatureFormat = "webauthn" then checkWebauthn crypto pk challengeBytes response
  else checkHmac crypto pk challengeBytes response

/-! ## Challenges -/

namespace PasskeyProvider

variable (env : PasskeyEnv) (s : PasskeyProvider)

/-- Insert a challenge. -/
def insertChallenge (challengeId : String) (pending : PendingChallenge) : PasskeyProvider :=
  { s with pendingChallenges := Function.update s.pendingChallenges challengeId (some pending) }

/-- Remove a challenge. -/
def removeChallenge (challengeId : String) : PasskeyProvider :=
  { s with pendingChallenges := Function.update s.pendingChallenges challengeId none }

/-- The challenge that `begin_registration` or `begin_authentication` inserts. -/
def newChallenge (now : ℤ) (identityIri : ResourceIri) (challengeBytes : Bytes)
    (kind : ChallengeKind) : PendingChallenge :=
  ⟨identityIri, challengeBytes, kind, now + challengeTtlSecs⟩

/-- What `begin_registration` returns. -/
def registrationOptions (identityIri : ResourceIri) (challengeBytes : Bytes) :
    RegistrationChallenge where
  challenge := env.crypto.encode challengeBytes
  rpId := env.iam.iris.domain
  rpName := "PiCloud"
  userId := env.crypto.encode (utf8 identityIri.value)
  userName := lastSegment identityIri.value
  timeoutMs := challengeTtlSecs * 1000

/-- What `begin_authentication` returns. -/
def authenticationOptions (passkeys : List RegisteredPasskey) (challengeBytes : Bytes) :
    AuthenticationChallenge where
  challenge := env.crypto.encode challengeBytes
  rpId := env.iam.iris.domain
  allowCredentials := passkeys.map RegisteredPasskey.credentialId
  timeoutMs := challengeTtlSecs * 1000

/-- `begin_registration`. -/
def beginRegistration (now : ℤ) (identityIri : ResourceIri) (challengeBytes : Bytes)
    (challengeId : String) : (String × RegistrationChallenge) × PasskeyProvider :=
  ((challengeId, registrationOptions env identityIri challengeBytes),
    s.insertChallenge challengeId (newChallenge now identityIri challengeBytes .registration))

/-- `begin_authentication`. -/
def beginAuthentication (now : ℤ) (identityIri : ResourceIri) (challengeBytes : Bytes)
    (challengeId : String) :
    Except PasskeyError (String × AuthenticationChallenge) × PasskeyProvider :=
  let passkeys := s.passkeys identityIri.value
  if passkeys = [] then (.error ⟨"no passkeys registered for this identity"⟩, s)
  else (.ok (challengeId, authenticationOptions env passkeys challengeBytes),
    s.insertChallenge challengeId (newChallenge now identityIri challengeBytes .authentication))

/-- The checks of a challenge that has been taken out. -/
def checkChallenge (kind : ChallengeKind) (now : ℤ) (pending : PendingChallenge) :
    Except PasskeyError Unit :=
  if pending.kind ≠ kind then
    .error ⟨match kind with
      | .registration => "challenge is not a registration challenge"
      | .authentication => "challenge is not an authentication challenge"⟩
  else if now ≥ pending.expiresAt then .error ⟨"challenge has expired"⟩
  else .ok ()

/-! ## Registration -/

/-- The passkey of a registration response. -/
def newPasskey (now : ℤ) (response : RegistrationResponse) : Except PasskeyError RegisteredPasskey :=
  match env.crypto.decode response.publicKey with
  | none => .error ⟨"invalid public key encoding"⟩
  | some publicKey =>
    .ok ⟨response.credentialId, publicKey, response.aaguid, now, none, response.displayName⟩

/-- `store_passkey`. -/
def storePasskey (identityIri : ResourceIri) (passkey : RegisteredPasskey) : PasskeyProvider :=
  let entry := s.passkeys identityIri.value ++ [passkey]
  { s with passkeys := Function.update s.passkeys identityIri.value entry }

/-- `register_identity`. -/
def registerIdentity (identityIri : ResourceIri) (roles : List String) : PasskeyProvider :=
  let identities := Function.update s.core.identities identityIri.value (some roles)
  { s with core := { s.core with identities := identities } }

/-- The identity is registered if it is not yet. -/
def ensureIdentity (identityIri : ResourceIri) : PasskeyProvider :=
  if (s.core.identities identityIri.value).isNone then s.registerIdentity identityIri [] else s

/-- `complete_registration`. The challenge is used up even when the call fails. -/
def completeRegistration (now : ℤ) (challengeId : String) (response : RegistrationResponse) :
    Except PasskeyError RegisteredPasskey × PasskeyProvider :=
  match s.pendingChallenges challengeId with
  | none => (.error ⟨"unknown or expired challenge ID"⟩, s)
  | some pending =>
    let taken := s.removeChallenge challengeId
    match checkChallenge .registration now pending with
    | .error e => (.error e, taken)
    | .ok () =>
      match newPasskey env now response with
      | .error e => (.error e, taken)
      | .ok passkey =>
        (.ok passkey,
          (taken.storePasskey pending.identityIri passkey).ensureIdentity pending.identityIri)

/-! ## Authentication -/

/-- The passkey that the response names, once its signature has been checked. -/
def matchPasskey (passkeys : List RegisteredPasskey) (challengeBytes : Bytes)
    (response : AuthenticationResponse) : Except PasskeyError RegisteredPasskey :=
  match passkeys.find? (·.credentialId = response.credentialId) with
  | none => .error ⟨"credential ID does not match any registered passkey"⟩
  | some passkey =>
    match checkSignature env.crypto passkey.publicKey challengeBytes response with
    | .error e => .error e
    | .ok () => .ok passkey

/-- The first passkey with the credential id has been used. -/
def touch (now : ℤ) (credentialId : String) : List RegisteredPasskey → List RegisteredPasskey
  | [] => []
  | p :: ps =>
    if p.credentialId = credentialId then { p with lastUsedAt := some now } :: ps
    else p :: touch now credentialId ps

/-- The passkey of an identity has been used. -/
def touchPasskey (now : ℤ) (identityIri : ResourceIri) (credentialId : String) : PasskeyProvider :=
  let entry := touch now credentialId (s.passkeys identityIri.value)
  { s with passkeys := Function.update s.passkeys identityIri.value entry }

/-- `complete_authentication`. -/
def completeAuthentication (now : ℤ) (challengeId : String) (response : AuthenticationResponse) :
    Except PasskeyError AccessToken × PasskeyProvider :=
  match s.pendingChallenges challengeId with
  | none => (.error ⟨"unknown or expired challenge ID"⟩, s)
  | some pending =>
    let taken := s.removeChallenge challengeId
    match checkChallenge .authentication now pending with
    | .error e => (.error e, taken)
    | .ok () =>
      match matchPasskey env (s.passkeys pending.identityIri.value) pending.challengeBytes
          response with
      | .error e => (.error e, taken)
      | .ok _ =>
        let used := taken.touchPasskey now pending.identityIri response.credentialId
        (.ok (used.core.issueToken env.iam now pending.identityIri none), used)

/-! ## Enrollment -/

/-- `is_valid`. -/
def isValid (now : ℤ) (token : EnrollmentToken) : Bool := !token.used && decide (now < token.expiresAt)

/-- The section of `enroll_with_token` that takes the token: the token before it is marked as
used. -/
def takeEnrollmentToken (now : ℤ) (token : String) :
    Except PasskeyError EnrollmentToken × PasskeyProvider :=
  match s.enrollmentTokens token with
  | none => (.error ⟨"invalid enrollment token"⟩, s)
  | some stored =>
    if isValid now stored then
      let used := { stored with used := true }
      (.ok stored, { s with
        enrollmentTokens := Function.update s.enrollmentTokens token (some used) })
    else (.error ⟨"enrollment token is expired or already used"⟩, s)

/-- The identity that an enrollment token is for, and the provider in which it is registered: a
bootstrap token makes a new admin. -/
def enrollee (adminId : Uuid) (token : EnrollmentToken) : ResourceIri × PasskeyProvider :=
  match token.targetIdentity with
  | some iri => (iri, s)
  | none =>
    let iri : ResourceIri := ⟨env.iam.iris.resource "platform" "identities" adminId.display⟩
    (iri, s.registerIdentity iri ["admin"])

/-- `enroll_with_token`. -/
def enrollWithToken (now : ℤ) (token : String) (adminId : Uuid) (challengeBytes : Bytes)
    (challengeId : String) :
    Except PasskeyError (String × RegistrationChallenge) × PasskeyProvider :=
  match s.takeEnrollmentToken now token with
  | (.error e, s) => (.error e, s)
  | (.ok stored, s) =>
    let (identityIri, s) := s.enrollee env adminId stored
    let (result, s) := s.beginRegistration env now identityIri challengeBytes challengeId
    (.ok result, s)

end PasskeyProvider

end Picloud
