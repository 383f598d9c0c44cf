import Picloud.Iam.Exchange

/-!
# Key rotation

Reference: `with_rotated_key`, `sign_token`, `verify_token`, `verify_token_with_rotation`,
`validate_token` and `token_exchange` of `picloud-iam/src/implementation.rs`.

Here a token is the text that clients hold: the base64 of the claims in JSON, a dot, the base64 of
their HMAC. HMAC, base64 and JSON are parameters. A chain of providers begins with one key and grows
by rotations, and every provider of the chain may issue tokens at any time.
-/

namespace Picloud

open Lib

/-! ## Token texts -/

/-- HMAC-SHA256 by key and message, base64 without padding, and the JSON of the claims. -/
structure TokenCodec where
  mac : Bytes → Bytes → Bytes
  encode : Bytes → String
  decode : String → Option Bytes
  toJson : TokenClaims → Bytes
  fromJson : Bytes → Option TokenClaims

/-- What a provider of the chain is made with. `isUrl` says whether a text parses as a URL. -/
structure RotationEnv where
  iris : IriBuilder
  tokenTtlSecs : ℤ
  hashSecret : String → String
  codec : TokenCodec
  isUrl : String → Bool

namespace RotationEnv

variable (env : RotationEnv)

/-- The first part of a token text. -/
def payload (claims : TokenClaims) : String := env.codec.encode (env.codec.toJson claims)

/-- The second part of a token text. -/
def signature (key : Bytes) (claims : TokenClaims) : String :=
  env.codec.encode (env.codec.mac key (utf8 (env.payload claims)))

/-- The provider with a given signing key. -/
def iam (key : Bytes) : IamEnv where
  iris := env.iris
  tokenTtlSecs := env.tokenTtlSecs
  hashSecret := env.hashSecret
  sign := env.signature key

/-- The text of a token. -/
def text (token : AccessToken) : String := env.payload token.claims ++ "." ++ token.signature

/-- `sign_token`. Claims always have a JSON text. -/
def signToken (key : Bytes) (claims : TokenClaims) : String :=
  env.text ⟨claims, env.signature key claims⟩

/-- `token.splitn(2, '.')`, when there are two parts. -/
def splitToken (token : String) : Option (String × String) :=
  (breakOn ['.'] token.toList).map fun cut => (String.ofList cut.1, String.ofList cut.2)

/-- The claims of a token text whose tag is right for the key. -/
def readClaims (key : Bytes) (token : String) : Option TokenClaims :=
  match splitToken token with
  | none => none
  | some (payload, signature) =>
    match env.codec.decode signature with
    | none => none
    | some tag =>
      if tag ≠ env.codec.mac key (utf8 payload) then none
      else (env.codec.decode payload).bind env.codec.fromJson

/-- The check of the expiry. -/
def checkExpiry (now : ℤ) (claims : TokenClaims) : Except IamError TokenClaims :=
  if now ≥ claims.expiresAt then .error .unauthenticated else .ok claims

end RotationEnv

/-! ## Providers -/

/-- `RetiredKey`. -/
structure RetiredKey where
  key : Bytes
  kid : String
  retiredAt : ℤ
deriving DecidableEq

/-- `LocalIdentityProvider`, as far as its keys go. The tables are shared by the providers of a
chain. -/
structure KeyedProvider where
  signingKey : Bytes
  keyId : String
  retiredKeys : List RetiredKey
deriving DecidableEq

/-- `s.parse::<u32>()`. -/
def parseU32 (s : String) : Option ℕ :=
  let digits := match s.toList with
    | '+' :: cs => cs
    | cs => cs
  if digits ≠ [] ∧ digits.all Char.isDigit then
    let n := digits.foldl (fun n c => 10 * n + (c.toNat - 48)) 0
    if n < 2 ^ 32 then some n else none
  else none

/-- The key id after a rotation; a `u32` counts the keys. -/
def nextKeyId (kid : String) : String :=
  let generation := if "picloud-hmac-".toList <+: kid.toList then
      (parseU32 (String.ofList (kid.toList.drop 13))).getD 1
    else 1
  "picloud-hmac-" ++ toString ((generation + 1) % 2 ^ 32)

namespace KeyedProvider

variable (env : RotationEnv) (prov : KeyedProvider)

/-- `LocalIdentityProvider::new`. -/
def new (key : Bytes) : KeyedProvider := ⟨key, "picloud-hmac-1", []⟩

/-- `with_rotated_key`. -/
def withRotatedKey (newKey : Bytes) (now : ℤ) : KeyedProvider where
  signingKey := newKey
  keyId := nextKeyId prov.keyId
  retiredKeys := prov.retiredKeys ++ [⟨prov.signingKey, prov.keyId, now⟩]

/-- `verify_token`. -/
def verifyToken (now : ℤ) (token : String) : Except IamError TokenClaims :=
  match env.readClaims prov.signingKey token with
  | none => .error .unauthenticated
  | some claims => RotationEnv.checkExpiry now claims

/-- The loop over the retired keys: the first key that the tag is right for decides. -/
def verifyRetired (now : ℤ) (token : String) : List RetiredKey → Except IamError TokenClaims
  | [] => .error .unauthenticated
  | rk :: rest =>
    match env.readClaims rk.key token with
    | none => verifyRetired now token rest
    | some claims => RotationEnv.checkExpiry now claims

/-- `verify_token_with_rotation`. The latest retired key is tried first. -/
def verifyTokenWithRotation (now : ℤ) (token : String) : Except IamError TokenClaims :=
  match prov.verifyToken env now token with
  | .ok claims => .ok claims
  | .error e =>
    if prov.retiredKeys ≠ [] then verifyRetired env now token prov.retiredKeys.reverse
    else .error e

/-- `validate_token`. -/
def validateToken (now : ℤ) (token : String) : Except ValidateError ValidatedIdentity :=
  match prov.verifyTokenWithRotation env now token with
  | .error _ => .error .unauthenticated
  | .ok claims =>
    if env.isUrl claims.identityIri then
      .ok ⟨claims.identityIri, claims.product, claims.roles, claims.aud, claims.scopes,
        claims.permissions⟩
    else .error (.invalidIri claims.identityIri)

/-- The claims of a token that is exchanged. -/
def exchangedClaims (now : ℤ) (original : TokenClaims) (audience scope : Option String) :
    TokenClaims where
  identityIri := original.identityIri
  product := original.product
  roles := original.roles
  issuedAt := now
  expiresAt := now + env.tokenTtlSecs
  aud := audience
  scopes := requestedScopes scope
  permissions := original.permissions
  actor := some original.identityIri

/-- `token_exchange`. The subject token is checked against the signing key only. -/
def tokenExchange (now : ℤ) (subjectToken : String) (audience scope : Option String) :
    Except IamError TokenResponse :=
  match prov.verifyToken env now subjectToken with
  | .error e => .error e
  | .ok original =>
    let exchanged := exchangedClaims env now original audience scope
    .ok {
      accessToken := ⟨exchanged, env.signature prov.signingKey exchanged⟩
      tokenType := "Bearer"
      expiresIn := env.tokenTtlSecs
      scope := scope }

end KeyedProvider

/-! ## Chains -/

/-- A token that a provider of the chain has issued, and the key of that provider. -/
structure IssuedToken where
  key : Bytes
  token : AccessToken
deriving DecidableEq

/-- A chain of providers, with the tables that they share and the tokens that they have issued. -/
structure KeyChain where
  core : LocalIdentityProvider
  current : KeyedProvider
  /-- The providers that have been rotated away, which may go on issuing tokens. -/
  older : List KeyedProvider
  issued : List IssuedToken

/-- What happens along a chain. A token is issued by the provider with the given number, the current
one being number zero; the shared tables may change in any way. -/
inductive ChainAction where
  | rotate (newKey : Bytes) (now : ℤ)
  | tables (core : LocalIdentityProvider)
  | issueToken (i : ℕ) (now : ℤ) (identityIri : ResourceIri) (product : Option String)
  | issueTokenWithAudience (i : ℕ) (now : ℤ) (identityIri : ResourceIri) (audience : String)
      (scopes : List String)
  | tokenExchange (i : ℕ) (now : ℤ) (subjectToken : String) (audience scope : Option String)

namespace KeyChain

variable (env : RotationEnv) (s : KeyChain)

/-- A first provider. -/
def new (key : Bytes) (core : LocalIdentityProvider) : KeyChain := ⟨core, .new key, [], []⟩

/-- The providers of the chain. -/
def providers : List KeyedProvider := s.current :: s.older

/-- A token has been issued with a key. -/
def issue (key : Bytes) (token : AccessToken) : KeyChain :=
  { s with issued := s.issued ++ [⟨key, token⟩] }

/-- One action. -/
def step : ChainAction → Option KeyChain
  | .rotate newKey now => some { s with
      current := s.current.withRotatedKey newKey now
      older := s.current :: s.older }
  | .tables core => some { s with core := core }
  | .issueToken i now iri product =>
    s.providers[i]?.map fun prov => s.issue prov.signingKey
      (s.core.issueToken (env.iam prov.signingKey) now iri product)
  | .issueTokenWithAudience i now iri audience scopes =>
    s.providers[i]?.map fun prov => s.issue prov.signingKey
      (s.core.issueTokenWithAudience (env.iam prov.signingKey) now iri audience scopes)
  | .tokenExchange i now subjectToken audience scope =>
    s.providers[i]?.map fun prov =>
      match prov.tokenExchange env now subjectToken audience scope with
      | .error _ => s
      | .ok response => s.issue prov.signingKey response.accessToken

/-- The keys that the current provider accepts in `validate_token`. -/
def acceptedKeys : List Bytes := s.current.signingKey :: s.current.retiredKeys.map RetiredKey.key

end KeyChain

/-! ## Reading a token text -/

/-- Base64 and JSON round-trip; base64 has no dots and one text for each byte string. -/
structure TokenCodec.RoundTrips (codec : TokenCodec) : Prop where
  decode_encode : ∀ bytes, codec.decode (codec.encode bytes) = some bytes
  encode_decode : ∀ text bytes, codec.decode text = some bytes → codec.encode bytes = text
  encode_dotless : ∀ bytes, '.' ∉ (codec.encode bytes).toList
  fromJson_toJson : ∀ claims, codec.fromJson (codec.toJson claims) = some claims

section Reading

variable {env : RotationEnv}

theorem splitToken_append {payload : String} (h : '.' ∉ payload.toList) (signature : String) :
    RotationEnv.splitToken (payload ++ "." ++ signature) = some (payload, signature) := by
  have hcut : breakOn ['.'] (payload.toList ++ ['.'] ++ signature.toList) =
      some (payload.toList, signature.toList) := by
    refine breakOn_append (by simp) ?_
    rw [List.dropLast_singleton, List.append_nil]
    exact fun hin => h (hin.subset List.mem_cons_self)
  have hlist : (payload ++ "." ++ signature).toList =
      payload.toList ++ ['.'] ++ signature.toList := by
    simp
  rw [RotationEnv.splitToken, hlist, hcut]
  simp

theorem append_of_splitToken {text payload signature : String}
    (h : RotationEnv.splitToken text = some (payload, signature)) :
    text = payload ++ "." ++ signature := by
  obtain ⟨⟨a, b⟩, hcut, heq⟩ := Option.map_eq_some_iff.mp h
  obtain ⟨rfl, rfl⟩ := Prod.mk.inj heq
  have hlist := eq_of_breakOn hcut
  rw [← String.toList_inj, hlist]
  simp

/-- A token that has been signed with one key, read with another. -/
theorem readClaims_text (hcodec : env.codec.RoundTrips) {k : Bytes} {token : AccessToken}
    (hsigned : token.signature = env.signature k token.claims) (key : Bytes) :
    env.readClaims key (env.text token) =
      if env.codec.mac k (utf8 (env.payload token.claims)) =
        env.codec.mac key (utf8 (env.payload token.claims)) then some token.claims else none := by
  have hsplit := splitToken_append (hcodec.encode_dotless (env.codec.toJson token.claims))
    token.signature
  rw [RotationEnv.readClaims, RotationEnv.text, RotationEnv.payload, hsplit, hsigned,
    RotationEnv.signature]
  simp only [hcodec.decode_encode, RotationEnv.payload, ne_eq, ite_not, Option.bind_some,
    hcodec.fromJson_toJson]

end Reading

/-! ## Verification with rotated keys -/

namespace KeyedProvider

variable {env : RotationEnv} {prov : KeyedProvider} {now : ℤ} {text : String}

/-- Every key either does not accept the text or reads the given claims from it. -/
def ReadAs (env : RotationEnv) (text : String) (claims : TokenClaims) (keys : List Bytes) : Prop :=
  ∀ key ∈ keys, env.readClaims key text = none ∨ env.readClaims key text = some claims

variable {keys : List RetiredKey} {claims : TokenClaims}

theorem verifyRetired_eq_error (h : ∀ rk ∈ keys, env.readClaims rk.key text = none) :
    verifyRetired env now text keys = .error .unauthenticated := by
  induction keys with
  | nil => rfl
  | cons rk rest ih =>
    rw [verifyRetired, h rk List.mem_cons_self]
    exact ih fun rk' hrk' => h rk' (List.mem_cons_of_mem rk hrk')

theorem verifyRetired_eq_checkExpiry (hread : ReadAs env text claims (keys.map RetiredKey.key))
    (haccepted : ∃ rk ∈ keys, env.readClaims rk.key text = some claims) :
    verifyRetired env now text keys = RotationEnv.checkExpiry now claims := by
  induction keys with
  | nil =>
    obtain ⟨rk, hrk, -⟩ := haccepted
    exact absurd hrk List.not_mem_nil
  | cons rk rest ih =>
    rw [verifyRetired]
    rcases hread rk.key List.mem_cons_self with hnone | hsome
    · rw [hnone]
      refine ih (fun key hkey => hread key (List.mem_cons_of_mem _ hkey)) ?_
      obtain ⟨rk', hrk', hclaims⟩ := haccepted
      rcases List.mem_cons.mp hrk' with rfl | hrest
      · rw [hnone] at hclaims
        cases hclaims
      · exact ⟨rk', hrest, hclaims⟩
    · rw [hsome]

/-- Reading the same claims with every key, the loop cannot accept what has expired. -/
theorem verifyRetired_of_expired (hread : ReadAs env text claims (keys.map RetiredKey.key))
    (hexpired : claims.expiresAt ≤ now) :
    verifyRetired env now text keys = .error .unauthenticated := by
  by_cases haccepted : ∃ rk ∈ keys, env.readClaims rk.key text = some claims
  · rw [verifyRetired_eq_checkExpiry hread haccepted, RotationEnv.checkExpiry, if_pos hexpired]
  · refine verifyRetired_eq_error fun rk hrk => ?_
    rcases hread rk.key (List.mem_map_of_mem hrk) with hnone | hsome
    · exact hnone
    · exact absurd ⟨rk, hrk, hsome⟩ haccepted

/-- No key accepts the text. -/
theorem verifyTokenWithRotation_eq_error (hcurrent : env.readClaims prov.signingKey text = none)
    (hretired : ∀ rk ∈ prov.retiredKeys, env.readClaims rk.key text = none) :
    prov.verifyTokenWithRotation env now text = .error .unauthenticated := by
  have hloop : verifyRetired env now text prov.retiredKeys.reverse = .error .unauthenticated :=
    verifyRetired_eq_error fun rk hrk => hretired rk (List.mem_reverse.mp hrk)
  rw [verifyTokenWithRotation, verifyToken, hcurrent]
  dsimp only
  rw [hloop, ite_self]

/-- Some key accepts the text: only the expiry matters. -/
theorem verifyTokenWithRotation_eq_checkExpiry
    (hread : ReadAs env text claims (prov.signingKey :: prov.retiredKeys.map RetiredKey.key))
    (haccepted : ∃ key ∈ prov.signingKey :: prov.retiredKeys.map RetiredKey.key,
      env.readClaims key text = some claims) :
    prov.verifyTokenWithRotation env now text = RotationEnv.checkExpiry now claims := by
  have hretired : ReadAs env text claims (prov.retiredKeys.reverse.map RetiredKey.key) := by
    intro key hkey
    rw [List.map_reverse, List.mem_reverse] at hkey
    exact hread key (List.mem_cons_of_mem _ hkey)
  rw [verifyTokenWithRotation, verifyToken]
  rcases hread prov.signingKey List.mem_cons_self with hnone | hsome
  · obtain ⟨key, hkey, hclaims⟩ := haccepted
    rcases List.mem_cons.mp hkey with rfl | hold
    · rw [hnone] at hclaims
      cases hclaims
    · obtain ⟨rk, hrk, rfl⟩ := List.mem_map.mp hold
      have hloop : verifyRetired env now text prov.retiredKeys.reverse =
          RotationEnv.checkExpiry now claims :=
        verifyRetired_eq_checkExpiry hretired ⟨rk, List.mem_reverse.mpr hrk, hclaims⟩
      rw [hnone]
      dsimp only
      rw [if_pos (List.ne_nil_of_mem hrk), hloop]
  · rw [hsome]
    dsimp only
    by_cases hexpired : claims.expiresAt ≤ now
    · have hcheck : RotationEnv.checkExpiry now claims = .error .unauthenticated := if_pos hexpired
      have hloop : verifyRetired env now text prov.retiredKeys.reverse = .error .unauthenticated :=
        verifyRetired_of_expired hretired hexpired
      rw [hcheck, hloop]
      exact ite_self _
    · have hcheck : RotationEnv.checkExpiry now claims = .ok claims := if_neg hexpired
      rw [hcheck]

/-- `validate_token` on a text that some key accepts. -/
theorem validateToken_of_accepted (now : ℤ)
    (hread : ReadAs env text claims (prov.signingKey :: prov.retiredKeys.map RetiredKey.key))
    (haccepted : ∃ key ∈ prov.signingKey :: prov.retiredKeys.map RetiredKey.key,
      env.readClaims key text = some claims) :
    prov.validateToken env now text =
      if claims.expiresAt ≤ now then .error .unauthenticated
      else if env.isUrl claims.identityIri then
        .ok ⟨claims.identityIri, claims.product, claims.roles, claims.aud, claims.scopes,
          claims.permissions⟩
      else .error (.invalidIri claims.identityIri) := by
  rw [validateToken, verifyTokenWithRotation_eq_checkExpiry hread haccepted,
    RotationEnv.checkExpiry]
  by_cases hexpired : claims.expiresAt ≤ now
  · rw [if_pos hexpired, if_pos hexpired]
  · rw [if_neg hexpired, if_neg hexpired]

/-- `token_exchange` accepts what the signing key accepts, up to the expiry. -/
theorem exists_tokenExchange_iff (audience scope : Option String) :
    (∃ response, prov.tokenExchange env now text audience scope = .ok response) ↔
      ∃ claims, env.readClaims prov.signingKey text = some claims ∧ now < claims.expiresAt := by
  rw [tokenExchange, verifyToken]
  cases env.readClaims prov.signingKey text with
  | none => simp
  | some claims =>
    by_cases hexpired : claims.expiresAt ≤ now
    · simp [RotationEnv.checkExpiry, hexpired]
    · simp [RotationEnv.checkExpiry, hexpired, not_le.mp hexpired]

theorem exists_tokenExchange_error_iff (audience scope : Option String) :
    (∃ e, prov.tokenExchange env now text audience scope = .error e) ↔
      ¬ ∃ claims, env.readClaims prov.signingKey text = some claims ∧ now < claims.expiresAt := by
  rw [← exists_tokenExchange_iff audience scope]
  cases prov.tokenExchange env now text audience scope <;> simp

end KeyedProvider

end Picloud
