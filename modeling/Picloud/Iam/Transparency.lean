import Picloud.Iam.ChallengeBinding
import Picloud.Iam.Rotation
import Mathlib.Logic.Encodable.Basic
import Mathlib.Logic.Equiv.List

/-!
# Transparent rotation

A rotation must not be noticed by those who hold a token. Along every chain of providers the current
one accepts the keys of all of them (`Linked`), so `validate_token` honours every token of the chain;
`token_exchange` looks at the signing key only, and `honours_iff` says which tokens it honours.
-/

namespace Picloud

open Lib

/-! ## What a provider honours -/

/-- A text carries a right tag only for what has been signed with that key: nobody presents a
forgery. -/
def KeyChain.Unforged (env : RotationEnv) (s : KeyChain) (text : String) : Prop :=
  ∀ key ∈ s.acceptedKeys, ∀ payload signature tag,
    RotationEnv.splitToken text = some (payload, signature) →
    env.codec.decode signature = some tag → tag = env.codec.mac key (utf8 payload) →
      ∃ t ∈ s.issued, t.key = key ∧ env.payload t.token.claims = payload

/-- Neither `validate_token` nor `token_exchange` accepts the text at a time. -/
def KeyedProvider.Rejects (env : RotationEnv) (prov : KeyedProvider) (now : ℤ) (text : String) :
    Prop :=
  (∃ e, prov.validateToken env now text = .error e) ∧
    ∀ audience scope, ∃ e, prov.tokenExchange env now text audience scope = .error e

/-- Up to its expiry, `validate_token` returns what the token was issued with. -/
def KeyedProvider.Knows (env : RotationEnv) (prov : KeyedProvider) (token : AccessToken) : Prop :=
  ∀ now, now < token.claims.expiresAt → prov.validateToken env now (env.text token) =
    .ok ⟨token.claims.identityIri, token.claims.product, token.claims.roles, token.claims.aud,
      token.claims.scopes, token.claims.permissions⟩

/-- The provider honours a token: up to its expiry, `validate_token` returns what it was issued with
and `token_exchange` accepts it, and from then on both reject it. -/
def KeyedProvider.Honours (env : RotationEnv) (prov : KeyedProvider) (token : AccessToken) : Prop :=
  ∀ now, (now < token.claims.expiresAt →
      prov.validateToken env now (env.text token) =
        .ok ⟨token.claims.identityIri, token.claims.product, token.claims.roles, token.claims.aud,
          token.claims.scopes, token.claims.permissions⟩ ∧
      ∀ audience scope, ∃ response,
        prov.tokenExchange env now (env.text token) audience scope = .ok response) ∧
    (token.claims.expiresAt ≤ now → prov.Rejects env now (env.text token))

/-! ## Every chain -/

namespace KeyChain

variable {env : RotationEnv} {s s' : KeyChain}

/-- The current provider accepts the keys of all providers of its chain, and the tokens are signed
with them. -/
structure Linked (env : RotationEnv) (s : KeyChain) : Prop where
  providers : ∀ prov ∈ s.providers, prov.signingKey ∈ s.acceptedKeys
  keys : ∀ t ∈ s.issued, t.key ∈ s.acceptedKeys
  signed : ∀ t ∈ s.issued, t.token.signature = env.signature t.key t.token.claims

theorem linked_new (env : RotationEnv) (key : Bytes) (core : LocalIdentityProvider) :
    Linked env (new key core) where
  providers prov hprov := by
    rw [List.mem_singleton.mp hprov]
    exact List.mem_cons_self
  keys t ht := absurd ht List.not_mem_nil
  signed t ht := absurd ht List.not_mem_nil

theorem Linked.issue (hs : Linked env s) {prov : KeyedProvider} (hprov : prov ∈ s.providers)
    {token : AccessToken} (hsigned : token.signature = env.signature prov.signingKey token.claims) :
    Linked env (s.issue prov.signingKey token) where
  providers := hs.providers
  keys t ht := by
    rcases List.mem_append.mp ht with hold | hnew
    · exact hs.keys t hold
    · rw [List.mem_singleton.mp hnew]
      exact hs.providers prov hprov
  signed t ht := by
    rcases List.mem_append.mp ht with hold | hnew
    · exact hs.signed t hold
    · rw [List.mem_singleton.mp hnew]
      exact hsigned

/-- A rotation keeps the accepted keys. -/
theorem mem_acceptedKeys_rotate {key newKey : Bytes} {now : ℤ} (h : key ∈ s.acceptedKeys) :
    key ∈ newKey :: (s.current.withRotatedKey newKey now).retiredKeys.map RetiredKey.key := by
  refine List.mem_cons_of_mem _ ?_
  simp only [KeyedProvider.withRotatedKey, List.map_append, List.map_cons, List.map_nil,
    List.mem_append, List.mem_singleton]
  exact (List.mem_cons.mp h).symm

theorem linked_step (hs : Linked env s) {a : ChainAction} (h : s.step env a = some s') :
    Linked env s' := by
  cases a with
  | rotate newKey now =>
    cases h
    refine ⟨fun prov hprov => ?_, fun t ht => mem_acceptedKeys_rotate (hs.keys t ht), hs.signed⟩
    rcases List.mem_cons.mp hprov with rfl | hold
    · exact List.mem_cons_self
    · exact mem_acceptedKeys_rotate (hs.providers prov hold)
  | tables core =>
    cases h
    exact ⟨hs.providers, hs.keys, hs.signed⟩
  | issueToken i now iri product =>
    obtain ⟨prov, hprov, rfl⟩ := Option.map_eq_some_iff.mp h
    exact hs.issue (List.mem_of_getElem? hprov) rfl
  | issueTokenWithAudience i now iri audience scopes =>
    obtain ⟨prov, hprov, rfl⟩ := Option.map_eq_some_iff.mp h
    exact hs.issue (List.mem_of_getElem? hprov) rfl
  | tokenExchange i now subjectToken audience scope =>
    obtain ⟨prov, hprov, rfl⟩ := Option.map_eq_some_iff.mp h
    cases hresult : prov.tokenExchange env now subjectToken audience scope with
    | error e => exact hs
    | ok response =>
      refine hs.issue (List.mem_of_getElem? hprov) ?_
      rw [KeyedProvider.tokenExchange] at hresult
      split at hresult
      · cases hresult
      · cases hresult
        rfl

/-- What an accepted key reads from a text that is no forgery is a token of the chain. -/
theorem issued_of_readClaims (hcodec : env.codec.RoundTrips) (hs : Linked env s) {text : String}
    (hunforged : s.Unforged env text) {key : Bytes} (hkey : key ∈ s.acceptedKeys)
    {claims : TokenClaims} (h : env.readClaims key text = some claims) :
    ∃ t ∈ s.issued, t.key = key ∧ env.text t.token = text := by
  rw [RotationEnv.readClaims] at h
  split at h
  · cases h
  · next payload signature hsplit =>
    split at h
    · cases h
    · next tag hdecode =>
      split at h
      · cases h
      · next htag =>
        have htag := not_not.mp htag
        obtain ⟨t, ht, rfl, hpayload⟩ := hunforged key hkey payload signature tag hsplit hdecode htag
        refine ⟨t, ht, rfl, ?_⟩
        have hsignature : t.token.signature = signature := by
          rw [hs.signed t ht, RotationEnv.signature, hpayload, ← htag]
          exact hcodec.encode_decode signature tag hdecode
        rw [RotationEnv.text, hpayload, hsignature, append_of_splitToken hsplit]

/-- A token of the chain is read with its own claims or not at all, and with the key that it was
signed with it is read. -/
theorem readAs_of_issued (hcodec : env.codec.RoundTrips) (hs : Linked env s) {t : IssuedToken}
    (ht : t ∈ s.issued) :
    KeyedProvider.ReadAs env (env.text t.token) t.token.claims s.acceptedKeys ∧
      env.readClaims t.key (env.text t.token) = some t.token.claims := by
  have hread := readClaims_text hcodec (hs.signed t ht)
  refine ⟨fun key _ => ?_, by rw [hread t.key, if_pos rfl]⟩
  rw [hread key]
  split
  · exact Or.inr rfl
  · exact Or.inl rfl

/-- `validate_token` knows every token of the chain that is about a URL until it expires, and from then
on nothing accepts it. -/
theorem known_until_expiry (hcodec : env.codec.RoundTrips) (hs : Linked env s) {t : IssuedToken}
    (ht : t ∈ s.issued) :
    (env.isUrl t.token.claims.identityIri = true → s.current.Knows env t.token) ∧
      ∀ now, t.token.claims.expiresAt ≤ now → s.current.Rejects env now (env.text t.token) := by
  obtain ⟨hread, hown⟩ := readAs_of_issued hcodec hs ht
  have hvalidate := fun now =>
    KeyedProvider.validateToken_of_accepted now hread ⟨t.key, hs.keys t ht, hown⟩
  refine ⟨fun hurl now hlive => by rw [hvalidate, if_neg (by omega), if_pos hurl], fun now hexpired => ?_⟩
  refine ⟨⟨_, by rw [hvalidate, if_pos hexpired]⟩, fun audience scope => ?_⟩
  refine (KeyedProvider.exists_tokenExchange_error_iff audience scope).mpr ?_
  rintro ⟨claims, hclaims, hlive⟩
  rcases hread _ List.mem_cons_self with hnone | hsome
  · rw [hnone] at hclaims
    cases hclaims
  · rw [hsome] at hclaims
    cases hclaims
    omega

/-- **Which tokens are honoured after rotations.** Whatever the chain has gone through, its current
provider knows every token about a URL until it expires and rejects it from then on; it honours the token,
so that it can be exchanged too, exactly when the token has been signed with the current key. It rejects
every text that no provider of the chain has issued. -/
theorem honours_iff (env : RotationEnv) (hcodec : env.codec.RoundTrips) (key : Bytes)
    (core : LocalIdentityProvider) (schedule : List ChainAction) (s : KeyChain)
    (hrun : runSteps (step env) (new key core) schedule = some s) (text : String)
    (hunforged : s.Unforged env text) :
    (∀ t ∈ s.issued, env.text t.token = text →
      (env.isUrl t.token.claims.identityIri = true → s.current.Knows env t.token) ∧
      (∀ now, t.token.claims.expiresAt ≤ now → s.current.Rejects env now text) ∧
      (s.current.Honours env t.token ↔ env.isUrl t.token.claims.identityIri = true ∧
        ∃ u ∈ s.issued, u.key = s.current.signingKey ∧ env.text u.token = text)) ∧
    ((∀ t ∈ s.issued, env.text t.token ≠ text) → ∀ now, s.current.Rejects env now text) := by
  have hs : Linked env s :=
    runSteps_preserves _ (fun _ _ _ hs h => linked_step hs h) schedule _ s (linked_new env key core)
      hrun
  have hcurrent : s.current.signingKey ∈ s.acceptedKeys := List.mem_cons_self
  constructor
  · rintro t ht rfl
    obtain ⟨hread, hown⟩ := readAs_of_issued hcodec hs ht
    obtain ⟨hknows, hexpires⟩ := known_until_expiry hcodec hs ht
    refine ⟨hknows, hexpires, ?_, ?_⟩
    · intro hhonours
      -- a moment before the expiry shows both
      obtain ⟨hvalid, hexchange⟩ :=
        (hhonours (t.token.claims.expiresAt - 1)).1 (by omega)
      constructor
      · rw [KeyedProvider.validateToken_of_accepted _ hread ⟨t.key, hs.keys t ht, hown⟩,
          if_neg (by omega)] at hvalid
        by_contra hurl
        rw [if_neg hurl] at hvalid
        cases hvalid
      · obtain ⟨claims, hclaims, -⟩ :=
          (KeyedProvider.exists_tokenExchange_iff none none).mp (hexchange none none)
        exact issued_of_readClaims hcodec hs hunforged hcurrent hclaims
    · rintro ⟨hurl, u, hu, hkey, htext⟩ now
      have hsigned : env.readClaims s.current.signingKey (env.text t.token) =
          some t.token.claims := by
        rcases hread _ hcurrent with hnone | hsome
        · have hother := (readAs_of_issued hcodec hs hu).2
          rw [htext, hkey, hnone] at hother
          cases hother
        · exact hsome
      exact ⟨fun hlive => ⟨hknows hurl now hlive, fun audience scope =>
        (KeyedProvider.exists_tokenExchange_iff audience scope).mpr ⟨_, hsigned, hlive⟩⟩, hexpires now⟩
  · intro hforeign now
    have hnone : ∀ key ∈ s.acceptedKeys, env.readClaims key text = none := by
      intro key hkey
      rw [Option.eq_none_iff_forall_ne_some]
      intro claims hclaims
      obtain ⟨t, ht, -, htext⟩ := issued_of_readClaims hcodec hs hunforged hkey hclaims
      exact hforeign t ht htext
    have hrotation : s.current.verifyTokenWithRotation env now text = .error .unauthenticated :=
      KeyedProvider.verifyTokenWithRotation_eq_error (hnone _ hcurrent) fun rk hrk =>
        hnone rk.key (List.mem_cons_of_mem _ (List.mem_map_of_mem hrk))
    refine ⟨⟨.unauthenticated, by rw [KeyedProvider.validateToken, hrotation]⟩, ?_⟩
    intro audience scope
    refine (KeyedProvider.exists_tokenExchange_error_iff audience scope).mpr ?_
    rintro ⟨claims, hclaims, -⟩
    rw [hnone _ hcurrent] at hclaims
    cases hclaims

/-! ## A token before and after a rotation -/

end KeyChain

/-- The texts of one token, and what sets them apart from each other. -/
structure TokenSample where
  claims : TokenClaims
  json : Bytes
  payload : String
  firstKey : Bytes
  secondKey : Bytes
  firstTag : Bytes
  firstTagText : String
  secondTag : Bytes
  json_brace : (123 : UInt8) ∈ json
  /-- Neither `=` nor a dot. -/
  payload_base64 : (61 : UInt8) ∉ utf8 payload ∧ (46 : UInt8) ∉ utf8 payload
  firstTagText_base64 : (61 : UInt8) ∉ utf8 firstTagText ∧ (46 : UInt8) ∉ utf8 firstTagText
  firstTagText_ne : firstTagText ≠ payload
  firstTag_ne : firstTag ≠ json
  secondTag_ne : firstTag ≠ secondTag
  secondKey_ne : secondKey ≠ firstKey

/-- The claims as a tuple. -/
def claimsEquiv : TokenClaims ≃ (String × Option String × List String × ℤ × ℤ × Option String ×
    List String × List String × Option String) where
  toFun c := (c.identityIri, c.product, c.roles, c.issuedAt, c.expiresAt, c.aud, c.scopes,
    c.permissions, c.actor)
  invFun t := ⟨t.1, t.2.1, t.2.2.1, t.2.2.2.1, t.2.2.2.2.1, t.2.2.2.2.2.1, t.2.2.2.2.2.2.1,
    t.2.2.2.2.2.2.2.1, t.2.2.2.2.2.2.2.2⟩
  left_inv _ := rfl
  right_inv _ := rfl

/-- Strings by the numbers of their characters. -/
instance stringEncodable : Encodable String :=
  Encodable.ofLeftInverse (fun s => s.toList.map Char.toNat)
    (fun ns => String.ofList (ns.map Char.ofNat)) fun s => by
      simp [Function.comp_def, Char.ofNat_toNat]

/-- Claims by their numbers. -/
instance claimsEncodable : Encodable TokenClaims := Encodable.ofEquiv _ claimsEquiv

namespace TokenSample

variable (c : TokenSample)

/-- Base64 on the texts of the sample; other bytes have texts of their own. -/
def encode (bytes : Bytes) : String :=
  if bytes = c.json then c.payload
  else if bytes = c.firstTag then c.firstTagText
  else sampleText bytes

/-- The bytes that a text stands for. -/
def decode (text : String) : Option Bytes :=
  let bytes := if text = c.payload then some c.json
    else if text = c.firstTagText then some c.firstTag
    else sampleDecode text
  bytes.filter (c.encode · = text)

/-- HMAC, base64 and JSON, which agree with the real ones on the sample. Other claims are written as
a run of zero bytes. -/
def codec : TokenCodec where
  mac key message :=
    if message = utf8 c.payload then
      if key = c.firstKey then c.firstTag else if key = c.secondKey then c.secondTag else []
    else []
  encode := c.encode
  decode := c.decode
  toJson claims := if claims = c.claims then c.json
    else List.replicate (Encodable.encode claims) 0
  fromJson bytes := if bytes = c.json then some c.claims else Encodable.decode bytes.length

/-- A cluster whose providers use them. -/
def env : RotationEnv where
  iris := ⟨"picloud.local"⟩
  tokenTtlSecs := 3600
  hashSecret _ := ""
  codec := c.codec
  isUrl iri := iri = c.claims.identityIri

theorem sampleText_dotless (bytes : Bytes) : '.' ∉ (sampleText bytes).toList := by
  intro hmem
  rw [sampleText, String.toList_ofList] at hmem
  rcases List.mem_cons.mp hmem with hhead | hrest
  · exact absurd hhead (by decide)
  · obtain ⟨byte, -, hbyte⟩ := List.mem_map.mp hrest
    have hlt := byte.toNat_lt
    have hvalid : (byte.toNat + 256).isValidChar := Or.inl (by omega)
    have hchar : (Char.ofNat (byte.toNat + 256)).toNat = byte.toNat + 256 := by
      rw [Char.ofNat, dif_pos hvalid]
      rfl
    rw [hbyte] at hchar
    have hdot : '.'.toNat = 46 := rfl
    omega

theorem sampleText_ne {text : String} (h : (61 : UInt8) ∉ utf8 text) (bytes : Bytes) :
    sampleText bytes ≠ text := by
  rintro rfl
  have hmark : '=' ∉ (sampleText bytes).toList := notMem_toList_of_utf8 (by decide) h
  rw [sampleText, String.toList_ofList] at hmark
  exact hmark List.mem_cons_self

theorem payload_dotless : '.' ∉ c.payload.toList :=
  notMem_toList_of_utf8 (by decide) c.payload_base64.2

theorem decode_encode (bytes : Bytes) : c.decode (c.encode bytes) = some bytes := by
  by_cases hjson : bytes = c.json
  · have htext : c.encode bytes = c.payload := by rw [encode, if_pos hjson]
    rw [htext, decode, if_pos rfl, ← hjson]
    simp [htext]
  · by_cases htag : bytes = c.firstTag
    · have htext : c.encode bytes = c.firstTagText := by
        rw [encode, if_neg hjson, if_pos htag]
      rw [htext, decode, if_neg c.firstTagText_ne, if_pos rfl, ← htag]
      simp [htext]
    · have htext : c.encode bytes = sampleText bytes := by
        rw [encode, if_neg hjson, if_neg htag]
      rw [htext, decode, if_neg (sampleText_ne c.payload_base64.1 bytes),
        if_neg (sampleText_ne c.firstTagText_base64.1 bytes), sampleDecode_sampleText]
      simp [htext]

theorem roundTrips : c.codec.RoundTrips where
  decode_encode := c.decode_encode
  encode_decode text bytes h := by
    have hfilter := (Option.filter_eq_some_iff.mp h).2
    exact of_decide_eq_true hfilter
  encode_dotless bytes := by
    show '.' ∉ (c.encode bytes).toList
    rw [encode]
    split_ifs
    · exact c.payload_dotless
    · exact notMem_toList_of_utf8 (by decide) c.firstTagText_base64.2
    · exact sampleText_dotless bytes
  fromJson_toJson claims := by
    by_cases h : claims = c.claims
    · simp [codec, h]
    · have hne : List.replicate (Encodable.encode claims) 0 ≠ c.json := by
        intro heq
        have hbrace := c.json_brace
        rw [← heq] at hbrace
        exact absurd (List.eq_of_mem_replicate hbrace) (by decide)
      simp [codec, h, hne, Encodable.encodek]

theorem payload_claims : c.env.payload c.claims = c.payload := by
  simp [RotationEnv.payload, env, codec, encode]

theorem mac_firstKey : c.env.codec.mac c.firstKey (utf8 c.payload) = c.firstTag := by
  simp [env, codec]

theorem mac_secondKey : c.env.codec.mac c.secondKey (utf8 c.payload) = c.secondTag := by
  simp [env, codec, c.secondKey_ne]

theorem signature_claims : c.env.signature c.firstKey c.claims = c.firstTagText := by
  rw [RotationEnv.signature, payload_claims, mac_firstKey]
  simp [env, codec, encode, c.firstTag_ne]

theorem isUrl_claims : c.env.isUrl c.claims.identityIri = true := by simp [env]

/-- The token, as the provider with the first key has issued it. -/
def issued : IssuedToken := ⟨c.firstKey, ⟨c.claims, c.firstTagText⟩⟩

theorem splitToken_text : RotationEnv.splitToken (c.env.text c.issued.token) =
    some (c.payload, c.firstTagText) := by
  show RotationEnv.splitToken (c.env.payload c.claims ++ "." ++ c.firstTagText) = _
  rw [payload_claims]
  exact splitToken_append c.payload_dotless c.firstTagText

/-- The tag of the token is not the one of the second key. -/
theorem readClaims_secondKey :
    c.env.readClaims c.secondKey (c.env.text c.issued.token) = none := by
  have hpayload : c.env.payload c.issued.token.claims = c.payload := c.payload_claims
  rw [readClaims_text c.roundTrips c.signature_claims.symm, hpayload, mac_firstKey, mac_secondKey,
    if_neg c.secondTag_ne]

/-- The tables of a new provider. -/
def emptyTables : LocalIdentityProvider := .new (fun _ => none) []

/-- The chain when the token has been issued. -/
def chain : KeyChain := ⟨emptyTables, .new c.firstKey, [], [c.issued]⟩

/-- The chain after a rotation. -/
def rotated (now : ℤ) : KeyChain where
  core := emptyTables
  current := (KeyedProvider.new c.firstKey).withRotatedKey c.secondKey now
  older := [.new c.firstKey]
  issued := [c.issued]

variable {c}

theorem run_issueToken {now : ℤ} {iri : ResourceIri}
    (h : (emptyTables.issueToken (c.env.iam c.firstKey) now iri none).claims = c.claims) :
    runSteps (KeyChain.step c.env) (.new c.firstKey emptyTables) [.issueToken 0 now iri none] =
      some c.chain := by
  have htoken : emptyTables.issueToken (c.env.iam c.firstKey) now iri none = c.issued.token :=
    (congrArg (fun claims => (⟨claims, c.env.signature c.firstKey claims⟩ : AccessToken)) h).trans
      (by rw [signature_claims]; rfl)
  rw [runSteps_singleton]
  exact congrArg
    (fun token => some ((KeyChain.new c.firstKey emptyTables).issue c.firstKey token)) htoken

theorem run_rotated {now : ℤ} {iri : ResourceIri}
    (h : (emptyTables.issueToken (c.env.iam c.firstKey) now iri none).claims = c.claims)
    (later : ℤ) :
    runSteps (KeyChain.step c.env) (.new c.firstKey emptyTables)
      [.issueToken 0 now iri none, .rotate c.secondKey later] = some (c.rotated later) := by
  have hfirst := run_issueToken h
  rw [runSteps_singleton] at hfirst
  rw [runSteps_cons, hfirst]
  rfl

theorem unforged_rotated (now : ℤ) :
    (c.rotated now).Unforged c.env (c.env.text c.issued.token) := by
  intro key hkey payload signature tag hsplit hdecode htag
  rw [splitToken_text] at hsplit
  cases hsplit
  have hkeys : (c.rotated now).acceptedKeys = [c.secondKey, c.firstKey] := rfl
  rw [hkeys] at hkey
  rcases List.mem_pair.mp hkey with rfl | rfl
  · have hfirst : c.env.codec.decode c.firstTagText = some c.firstTag := by
      rw [← signature_claims, RotationEnv.signature, payload_claims, mac_firstKey]
      exact c.roundTrips.decode_encode c.firstTag
    rw [hfirst, htag, mac_secondKey] at hdecode
    exact absurd (Option.some.inj hdecode) c.secondTag_ne
  · exact ⟨c.issued, List.mem_cons_self, rfl, c.payload_claims⟩

theorem tokenExchange_rotated (now later : ℤ) (audience scope : Option String) :
    (c.rotated now).current.tokenExchange c.env later (c.env.text c.issued.token) audience scope =
      .error .unauthenticated := by
  have hverify : (c.rotated now).current.verifyToken c.env later (c.env.text c.issued.token) =
      .error .unauthenticated := by
    have hkey : (c.rotated now).current.signingKey = c.secondKey := rfl
    rw [KeyedProvider.verifyToken, hkey, readClaims_secondKey]
  rw [KeyedProvider.tokenExchange, hverify]

end TokenSample

namespace KeyChain

/-- The JSON text of the claims of a user. -/
def aliceJson : Bytes := utf8
  ("\x7b\"identity_iri\":\"https://picloud.local/identities/alice\",\"product\":null," ++
    "\"roles\":[],\"issued_at\":1700000000,\"expires_at\":1700003600,\"aud\":null," ++
    "\"scopes\":[],\"permissions\":[],\"actor\":null\x7d")

/-- The base64 of the JSON text. -/
def alicePayload : String :=
  "eyJpZGVudGl0eV9pcmkiOiJodHRwczovL3BpY2xvdWQubG9jYWwvaWRlbnRpdGllcy9hbGljZSIsInByb2R1Y3QiOm51" ++
    "bGwsInJvbGVzIjpbXSwiaXNzdWVkX2F0IjoxNzAwMDAwMDAwLCJleHBpcmVzX2F0IjoxNzAwMDAzNjAwLCJhdWQiOm51" ++
    "bGwsInNjb3BlcyI6W10sInBlcm1pc3Npb25zIjpbXSwiYWN0b3IiOm51bGx9"

/-- A token for the user, with the HMAC-SHA256 of its payload under two keys. -/
def alice : TokenSample where
  claims := ⟨"https://picloud.local/identities/alice", none, [], 1700000000, 1700003600, none, [],
    [], none⟩
  json := aliceJson
  payload := alicePayload
  firstKey := utf8 "first-signing-key"
  secondKey := utf8 "second-signing-key"
  firstTag :=
    [200, 203, 59, 19, 239, 107, 28, 192, 71, 164, 41, 60, 227, 65, 108, 139, 160, 221, 146, 17, 83,
      174, 117, 216, 235, 178, 53, 118, 48, 20, 6, 84]
  firstTagText := "yMs7E-9rHMBHpCk840Fsi6DdkhFTrnXY67I1djAUBlQ"
  secondTag :=
    [166, 199, 92, 27, 23, 167, 197, 101, 237, 131, 64, 241, 141, 101, 36, 169, 47, 140, 158, 227,
      250, 10, 154, 150, 181, 214, 23, 53, 74, 26, 197, 21]
  json_brace := by decide +kernel
  payload_base64 := by decide +kernel
  firstTagText_base64 := by decide +kernel
  firstTagText_ne := by decide +kernel
  firstTag_ne := by decide +kernel
  secondTag_ne := by decide +kernel
  secondKey_ne := by decide +kernel

theorem issueToken_alice : (TokenSample.emptyTables.issueToken (alice.env.iam alice.firstKey)
    1700000000 ⟨"https://picloud.local/identities/alice"⟩ none).claims = alice.claims := rfl

/-- After a rotation the token is known until it expires, and not honoured. -/
theorem honours_iff_rotated :
    (alice.rotated 1700000100).current.Knows alice.env alice.issued.token ∧
    (alice.rotated 1700000100).current.Rejects alice.env 1700003600
      (alice.env.text alice.issued.token) ∧
    ¬ (alice.rotated 1700000100).current.Honours alice.env alice.issued.token := by
  obtain ⟨hknows, hexpires, hhonours⟩ :=
    (honours_iff alice.env alice.roundTrips alice.firstKey TokenSample.emptyTables _
      (alice.rotated 1700000100) (TokenSample.run_rotated issueToken_alice 1700000100) _
      (TokenSample.unforged_rotated _)).1 alice.issued List.mem_cons_self rfl
  refine ⟨hknows alice.isUrl_claims, hexpires 1700003600 (by decide), fun h => ?_⟩
  obtain ⟨-, u, hu, hkey, -⟩ := hhonours.mp h
  obtain rfl := List.mem_singleton.mp hu
  exact alice.secondKey_ne hkey.symm

/-- After a rotation the token is valid, and is not accepted for an exchange. -/
theorem exchange_after_rotation_rejected : alice.env.codec.RoundTrips ∧
    runSteps (step alice.env) (new alice.firstKey TokenSample.emptyTables)
      [.issueToken 0 1700000000 ⟨"https://picloud.local/identities/alice"⟩ none,
        .rotate alice.secondKey 1700000100] = some (alice.rotated 1700000100) ∧
    (alice.rotated 1700000100).Unforged alice.env (alice.env.text alice.issued.token) ∧
    (alice.rotated 1700000100).current.validateToken alice.env 1700000200
        (alice.env.text alice.issued.token) =
      .ok ⟨"https://picloud.local/identities/alice", none, [], none, [], []⟩ ∧
    (alice.rotated 1700000100).current.tokenExchange alice.env 1700000200
      (alice.env.text alice.issued.token) none none = .error .unauthenticated ∧
    ¬ (alice.rotated 1700000100).current.Honours alice.env alice.issued.token := by
  have hrun := TokenSample.run_rotated issueToken_alice 1700000100
  have hexchange := TokenSample.tokenExchange_rotated (c := alice) 1700000100 1700000200 none none
  have hlinked : Linked alice.env (alice.rotated 1700000100) :=
    runSteps_preserves _ (fun _ _ _ hs h => linked_step hs h) _ _ _ (linked_new _ _ _) hrun
  have hissued : alice.issued ∈ (alice.rotated 1700000100).issued := List.mem_cons_self
  refine ⟨alice.roundTrips, hrun, TokenSample.unforged_rotated _, ?_, hexchange, ?_⟩
  · exact (known_until_expiry alice.roundTrips hlinked hissued).1 alice.isUrl_claims 1700000200
      (by decide)
  · intro hhonours
    have hlive : (1700000200 : ℤ) < alice.issued.token.claims.expiresAt := by decide
    obtain ⟨response, hok⟩ := ((hhonours 1700000200).1 hlive).2 none none
    rw [hexchange] at hok
    cases hok

end KeyChain

end Picloud
