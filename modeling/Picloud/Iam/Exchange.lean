import Picloud.Iam.Scopes

/-!
# Audience binding and token exchange

Reference: `token_exchange`, `issue_token`, `verify_token` and `validate_token` of
`picloud-iam/src/implementation.rs`, and `validate_product_audience` of
`picloud-http/src/implementation.rs`.

A holder starts with tokens for one product. It may exchange any token that it holds, be issued more
tokens for the product, and use the credentials of the clients of the product; everybody else uses
the provider as they like. The exchange gives the token the audience that the request names, whatever
it is, so that nothing but the requests keeps the holder away from another product.
-/

namespace Picloud

open Lib

/-! ## Verification and exchange -/

/-- `ValidatedIdentity`. -/
structure ValidatedIdentity where
  identityIri : String
  product : Option String
  roles : List String
  audience : Option String
  scopes : List String
  permissions : List String
deriving DecidableEq

/-- A role that is let into every product. -/
def isAdminRole (role : String) : Bool := role = "admin" || role = "platform-admin"

/-- `is_platform_admin`. -/
def ValidatedIdentity.isPlatformAdmin (identity : ValidatedIdentity) : Bool :=
  identity.roles.any isAdminRole

/-- The errors of `validate_token`. -/
inductive ValidateError where
  | unauthenticated
  | invalidIri (iri : String)
deriving DecidableEq

namespace LocalIdentityProvider

variable (env : IamEnv) (prov : LocalIdentityProvider)

/-- `issue_token`. -/
def issueToken (now : ℤ) (identityIri : ResourceIri) (product : Option String) : AccessToken :=
  let roles := (prov.identities identityIri.value).getD []
  let claims : TokenClaims := {
    identityIri := identityIri.value
    product := product
    roles := mergeRoles roles (prov.rolesFromGroups identityIri.value)
    issuedAt := now
    expiresAt := now + env.tokenTtlSecs
    aud := product.map env.iris.product
    scopes := []
    permissions := []
    actor := none }
  ⟨claims, env.sign claims⟩

/-- `verify_token`, with the signing key of the provider. -/
def verifyToken (now : ℤ) (token : AccessToken) : Except IamError TokenClaims :=
  if token.signature ≠ env.sign token.claims then .error .unauthenticated
  else if now ≥ token.claims.expiresAt then .error .unauthenticated
  else .ok token.claims

/-- `token_exchange`. Neither the audience nor the scopes are checked. -/
def tokenExchange (now : ℤ) (subjectToken : AccessToken) (audience scope : Option String) :
    Except IamError TokenResponse := do
  let original ← verifyToken env now subjectToken
  let exchanged : TokenClaims := {
    identityIri := original.identityIri
    product := original.product
    roles := original.roles
    issuedAt := now
    expiresAt := now + env.tokenTtlSecs
    aud := audience
    scopes := requestedScopes scope
    permissions := original.permissions
    actor := some original.identityIri }
  pure {
    accessToken := ⟨exchanged, env.sign exchanged⟩
    tokenType := "Bearer"
    expiresIn := env.tokenTtlSecs
    scope := scope }

/-- `validate_token` of a provider without retired keys. `isUrl` says whether a text parses as a
URL. -/
def validateToken (isUrl : String → Bool) (now : ℤ) (token : AccessToken) :
    Except ValidateError ValidatedIdentity :=
  match verifyToken env now token with
  | .error _ => .error .unauthenticated
  | .ok claims =>
    if isUrl claims.identityIri then
      .ok ⟨claims.identityIri, claims.product, claims.roles, claims.aud, claims.scopes,
        claims.permissions⟩
    else .error (.invalidIri claims.identityIri)

end LocalIdentityProvider

/-! ## The audience check of the HTTP server -/

/-- The `Authorization` header of a request. -/
inductive AuthHeader where
  | absent
  /-- No text, or no bearer token. -/
  | other
  | bearer (token : AccessToken)

/-- The rejections of `validate_product_audience`. -/
inductive AudienceRejection where
  | invalidToken
  | invalidAudience (description : String)
deriving DecidableEq

/-- The IRI that stands for the whole cluster as an audience. -/
def clusterAudience (iris : IriBuilder) : String := "https://" ++ iris.domain

/-- `validate_product_audience`, with an identity provider. A token without an audience is accepted
everywhere. -/
def validateProductAudience (env : IamEnv) (isUrl : String → Bool) (now : ℤ) (header : AuthHeader)
    (productName : String) : Option (Except AudienceRejection ValidatedIdentity) :=
  match header with
  | .absent => none
  | .other => none
  | .bearer token =>
    match LocalIdentityProvider.validateToken env isUrl now token with
    | .error _ => some (.error .invalidToken)
    | .ok identity =>
      match identity.audience with
      | none => some (.ok identity)
      | some aud =>
        if aud ≠ env.iris.product productName ∧ aud ≠ clusterAudience env.iris ∧
            identity.isPlatformAdmin = false then
          some (.error (.invalidAudience ("Token audience '" ++ aud ++
            "' does not match product '" ++ productName ++ "'")))
        else some (.ok identity)

/-- The token is let into the product at some time, on some server. -/
def Accepted (env : IamEnv) (productName : String) (token : AccessToken) : Prop :=
  ∃ isUrl now identity,
    validateProductAudience env isUrl now (.bearer token) productName = some (.ok identity)

/-! ## Runs -/

/-- The provider, and the tokens of the holder. -/
structure HolderState where
  prov : LocalIdentityProvider
  held : List AccessToken

/-- What happens. -/
inductive HolderAction where
  /-- Somebody else uses the provider; the holder gets nothing. -/
  | other (request : IamRequest)
  /-- The platform issues a token for the product to the holder. -/
  | issueToken (now : ℤ) (identityIri : ResourceIri)
  /-- The same, with scopes. -/
  | issueTokenWithAudience (now : ℤ) (identityIri : ResourceIri) (scopes : List String)
  /-- The holder uses the credentials of a client of the product. -/
  | clientCredentials (now : ℤ) (clientId clientSecret : String) (scope audience : Option String)
  /-- The holder exchanges a token that it holds. -/
  | exchange (now : ℤ) (token : AccessToken) (audience scope : Option String)

/-- The roles of an identity. -/
def LocalIdentityProvider.rolesOf (prov : LocalIdentityProvider) (iri : String) : List String :=
  mergeRoles ((prov.identities iri).getD []) (prov.rolesFromGroups iri)

namespace HolderState

/-- The holder gets the token of a response. -/
def receive (s : HolderState) (result : Except IamError TokenResponse) : HolderState :=
  match result with
  | .ok response => { s with held := response.accessToken :: s.held }
  | .error _ => s

/-- One step of a run in which the holder is at home in the product `p`. -/
def step (env : IamEnv) (p : String) (s : HolderState) : HolderAction → Option HolderState
  | .other request => some { s with prov := (s.prov.handle env request).2 }
  | .issueToken now identityIri =>
    if (s.prov.rolesOf identityIri.value).any isAdminRole then none
    else some { s with held := s.prov.issueToken env now identityIri (some p) :: s.held }
  | .issueTokenWithAudience now identityIri scopes =>
    if (s.prov.rolesOf identityIri.value).any isAdminRole then none
    else
      let token := s.prov.issueTokenWithAudience env now identityIri (env.iris.product p) scopes
      some { s with held := token :: s.held }
  | .clientCredentials now clientId clientSecret scope audience =>
    match s.prov.appRegistrations clientId with
    | none => none
    | some app =>
      if app.productName ≠ p ∨ (s.prov.rolesOf app.registration.productIri.value).any isAdminRole
      then none
      else some (s.receive (s.prov.clientCredentialsTokenWithAudience env now clientId clientSecret
        scope audience))
  | .exchange now token audience scope =>
    if token ∈ s.held then
      some (s.receive (LocalIdentityProvider.tokenExchange env now token audience scope))
    else none

/-- The permission that a request stores is not the one between the two products. -/
def KeepsApart (env : IamEnv) (p q : String) : HolderAction → Prop
  | .other request => request.Plain env ∧
      ∀ permission, request = .registerM2mPermission permission →
        ¬ (permission.client = p ∧ permission.product = q)
  | _ => True

/-- The step does not reach the defect: an exchange names an audience, and neither the other product
nor the whole cluster. -/
def AsksElsewhere (env : IamEnv) (q : String) (_ : HolderState) : HolderAction → Prop
  | .exchange now token audience _ =>
    (LocalIdentityProvider.verifyToken env now token).isOk →
      audience ≠ none ∧ audience ≠ some (env.iris.product q) ∧
        audience ≠ some (clusterAudience env.iris)
  | _ => True

end HolderState

/-! ## Tokens that are not let in -/

/-- The token names an audience other than the product and the cluster, and no role that is let in
everywhere. -/
structure Outside (env : IamEnv) (q : String) (claims : TokenClaims) : Prop where
  aud : ∃ a, claims.aud = some a ∧ a ≠ env.iris.product q ∧ a ≠ clusterAudience env.iris
  roles : claims.roles.any isAdminRole = false

variable {env : IamEnv} {token : AccessToken}

/-- A token that is verified has the claims that are returned. -/
theorem claims_of_verifyToken {now : ℤ} {claims : TokenClaims}
    (h : LocalIdentityProvider.verifyToken env now token = .ok claims) : token.claims = claims := by
  unfold LocalIdentityProvider.verifyToken at h
  split_ifs at h
  exact Except.ok.inj h

theorem validated_of_validateToken {isUrl : String → Bool} {now : ℤ} {identity : ValidatedIdentity}
    (h : LocalIdentityProvider.validateToken env isUrl now token = .ok identity) :
    identity.audience = token.claims.aud ∧ identity.roles = token.claims.roles := by
  unfold LocalIdentityProvider.validateToken at h
  cases hver : LocalIdentityProvider.verifyToken env now token with
  | error e =>
    rw [hver] at h
    cases h
  | ok claims =>
    simp only [hver] at h
    split_ifs at h
    rw [claims_of_verifyToken hver, ← Except.ok.inj h]
    exact ⟨rfl, rfl⟩

theorem Outside.not_accepted {q : String} (h : Outside env q token.claims) : ¬ Accepted env q token := by
  rintro ⟨isUrl, now, identity, hok⟩
  obtain ⟨a, haud, hq, hcluster⟩ := h.aud
  simp only [validateProductAudience] at hok
  cases hval : LocalIdentityProvider.validateToken env isUrl now token with
  | error e =>
    rw [hval] at hok
    cases hok
  | ok validated =>
    obtain ⟨hvaud, hvroles⟩ := validated_of_validateToken hval
    have hadmin : validated.isPlatformAdmin = false := by
      rw [ValidatedIdentity.isPlatformAdmin, hvroles, h.roles]
    simp only [hval, hvaud, haud, hadmin, and_true] at hok
    rw [if_pos ⟨hq, hcluster⟩] at hok
    cases hok

theorem product_ne_clusterAudience (iris : IriBuilder) (p : String) :
    iris.product p ≠ clusterAudience iris := by
  intro h
  have hlen := congrArg (fun s => s.toList.length) h
  simp only [toList_product, clusterAudience, List.length_append] at hlen
  have hpattern : "/products/".toList.length = 10 := by decide
  omega

/-- The audience of the cluster is not split. -/
theorem productOf_clusterAudience {iris : IriBuilder} (hdomain : PlainDomain iris) :
    productOf (clusterAudience iris) = none := by
  have hpattern : ¬ "/products/".toList <:+: (clusterAudience iris).toList := by
    intro hin
    refine hdomain (hin.trans ?_)
    rw [String.toList_append, clusterAudience]
    exact (List.prefix_append _ _).isInfix
  rw [productOf, secondPiece, breakOn_eq_none hpattern]
  rfl

/-- A token for the product of the holder. -/
theorem outside_of_product {p q : String} (hpq : p ≠ q) {claims : TokenClaims}
    (haud : claims.aud = some (env.iris.product p)) (hroles : claims.roles.any isAdminRole = false) :
    Outside env q claims :=
  ⟨⟨_, haud, fun h => hpq (product_injective env.iris h), product_ne_clusterAudience env.iris p⟩,
    hroles⟩

/-! ## What every run keeps -/

namespace HolderState

variable {env : IamEnv} {p q : String} {s s' : HolderState} {action : HolderAction}

/-- Clients of the product are registered with its IRI, no permission leads from it to the other
product or to the cluster, and no token of the holder is let in there. -/
structure Confined (env : IamEnv) (p q : String) (s : HolderState) : Prop where
  apps : ∀ clientId app, s.prov.appRegistrations clientId = some app →
    app.registration.productIri.value = env.iris.product app.productName
  product : s.prov.m2mPermissions (m2mKey p q) = none
  cluster : s.prov.m2mPermissions (m2mKey p (clusterAudience env.iris)) = none
  held : ∀ token ∈ s.held, Outside env q token.claims

/-- The IRI of the cluster is no product name. -/
theorem not_plainName_clusterAudience (iris : IriBuilder) : ¬ PlainName (clusterAudience iris) := by
  intro h
  exact h.1 (by simp [clusterAudience])

/-- A request of somebody else leaves the tables apart. -/
theorem confined_handle {request : IamRequest} (hs : Confined env p q s) (hplain : request.Plain env)
    (hapart : ∀ permission, request = .registerM2mPermission permission →
      ¬ (permission.client = p ∧ permission.product = q)) :
    Confined env p q { s with prov := (s.prov.handle env request).2 } := by
  cases request with
  | registerApp clientUuid id clientSecret productIri redirectUris scopes =>
    refine ⟨fun c app happ => ?_, hs.product, hs.cluster, hs.held⟩
    obtain ⟨name, hname, hiri⟩ := hplain
    by_cases hc : c = "picloud-" ++ clientUuid.display
    · subst hc
      simp only [LocalIdentityProvider.handle, LocalIdentityProvider.registerApp,
        Function.update_self, Option.some.injEq] at happ
      subst happ
      simp only [hiri, lastSegment_product env.iris hname]
    · simp only [LocalIdentityProvider.handle, LocalIdentityProvider.registerApp,
        Function.update_of_ne hc] at happ
      exact hs.apps c app happ
  | registerM2mPermission permission =>
    obtain ⟨hclient, hproduct⟩ := hplain
    have hkey : ∀ target, ¬ (permission.client = p ∧ permission.product = target) →
        m2mKey p target ≠ m2mKey permission.client permission.product := by
      intro target hne heq
      exact hne (m2mKey_inj hclient hproduct heq.symm)
    refine ⟨hs.apps, ?_, ?_, hs.held⟩
    · simp only [LocalIdentityProvider.handle, LocalIdentityProvider.registerM2mPermission,
        Function.update_of_ne (hkey q (hapart permission rfl))]
      exact hs.product
    · have hne : ¬ (permission.client = p ∧ permission.product = clusterAudience env.iris) :=
        fun heq => not_plainName_clusterAudience env.iris (heq.2 ▸ hproduct)
      simp only [LocalIdentityProvider.handle, LocalIdentityProvider.registerM2mPermission,
        Function.update_of_ne (hkey _ hne)]
      exact hs.cluster
  | clientCredentialsToken now clientId clientSecret scope => exact hs
  | clientCredentialsTokenWithAudience now clientId clientSecret scope audience => exact hs
  | beginAuthorizationCode now code clientId redirectUri scope identityIri =>
    have hsame : (s.prov.handle env
        (.beginAuthorizationCode now code clientId redirectUri scope identityIri)).2 =
        { s.prov with pendingAuthCodes := (s.prov.handle env
          (.beginAuthorizationCode now code clientId redirectUri scope identityIri)).2.pendingAuthCodes
          } := by
      simp only [LocalIdentityProvider.handle, LocalIdentityProvider.beginAuthorizationCode]
      split <;> rfl
    rw [hsame]
    exact ⟨hs.apps, hs.product, hs.cluster, hs.held⟩
  | exchangeAuthorizationCode now code clientId redirectUri =>
    have hsame : (s.prov.handle env
        (.exchangeAuthorizationCode now code clientId redirectUri)).2 =
        { s.prov with pendingAuthCodes := (s.prov.handle env
          (.exchangeAuthorizationCode now code clientId redirectUri)).2.pendingAuthCodes } := by
      simp only [LocalIdentityProvider.handle, LocalIdentityProvider.exchangeAuthorizationCode]
      split <;> rfl
    rw [hsame]
    exact ⟨hs.apps, hs.product, hs.cluster, hs.held⟩

/-- The holder gets a token that is not let in. -/
theorem Confined.hold (hs : Confined env p q s) {token : AccessToken}
    (h : Outside env q token.claims) : Confined env p q { s with held := token :: s.held } := by
  refine ⟨hs.apps, hs.product, hs.cluster, fun other hother => ?_⟩
  rcases List.mem_cons.mp hother with rfl | hold
  · exact h
  · exact hs.held other hold

/-- The holder gets the token of a response. -/
theorem Confined.receive (hs : Confined env p q s) {result : Except IamError TokenResponse}
    (h : ∀ response, result = .ok response → Outside env q response.accessToken.claims) :
    Confined env p q (s.receive result) := by
  unfold HolderState.receive
  cases result with
  | error e => exact hs
  | ok response => exact hs.hold (h response rfl)

/-- A token from the credentials of a client of the product. -/
theorem outside_of_clientCredentials (hdomain : PlainDomain env.iris) (hplain : PlainName p)
    (hq : PlainName q) (hpq : p ≠ q) (hs : Confined env p q s) {now : ℤ} {clientId clientSecret : String}
    {scope audience : Option String} {app : StoredAppRegistration}
    (happ : s.prov.appRegistrations clientId = some app) (hp : app.productName = p)
    (hroles : (s.prov.rolesOf app.registration.productIri.value).any isAdminRole = false)
    {response : TokenResponse}
    (h : s.prov.clientCredentialsTokenWithAudience env now clientId clientSecret scope audience =
      .ok response) : Outside env q response.accessToken.claims := by
  cases audience with
  | none =>
    obtain ⟨app₁, -, h⟩ := bind_eq_ok.mp h
    obtain ⟨app', hauth, h⟩ := bind_eq_ok.mp h
    obtain ⟨granted, -, h⟩ := bind_eq_ok.mp h
    obtain rfl : app = app' := Option.some.inj
      (happ.symm.trans (LocalIdentityProvider.registered_of_authenticate hauth))
    cases h
    exact outside_of_product hpq (congrArg (fun name => some (env.iris.product name)) hp) hroles
  | some aud =>
    have haudience := LocalIdentityProvider.of_clientCredentialsTokenWithAudience h
    obtain ⟨app', hauth, htoken, hcheck⟩ := haudience
    obtain rfl : app = app' := Option.some.inj
      (happ.symm.trans (LocalIdentityProvider.registered_of_authenticate hauth))
    rw [hp] at hcheck
    -- a permission that is not stored is not checked successfully
    have hdenied : ∀ target, s.prov.m2mPermissions (m2mKey p target) = none →
        target ≠ p → (productOf aud).getD aud ≠ target := by
      rintro target hnone hne rfl
      obtain ⟨permission, hstored, -⟩ :=
        LocalIdentityProvider.stored_of_checkM2mPermission (hcheck hne)
      rw [hnone] at hstored
      cases hstored
    rw [htoken]
    refine ⟨⟨aud, rfl, ?_, ?_⟩, hroles⟩
    · rintro rfl
      refine hdenied q hs.product (Ne.symm hpq) ?_
      rw [productOf_product hdomain hq]
      rfl
    · rintro rfl
      refine hdenied _ hs.cluster ?_ ?_
      · rintro rfl
        exact not_plainName_clusterAudience env.iris hplain
      · rw [productOf_clusterAudience hdomain]
        rfl

/-- Every step keeps the holder confined. -/
theorem confined_step (hdomain : PlainDomain env.iris) (hplain : PlainName p) (hq : PlainName q)
    (hpq : p ≠ q) (hs : Confined env p q s) (hapart : KeepsApart env p q action)
    (hasks : s.AsksElsewhere env q action) (h : s.step env p action = some s') :
    Confined env p q s' := by
  cases action with
  | other request =>
    cases h
    exact confined_handle hs hapart.1 hapart.2
  | issueToken now identityIri =>
    simp only [step] at h
    split_ifs at h with hadmin
    cases h
    refine hs.hold (outside_of_product hpq rfl ?_)
    exact Bool.eq_false_of_not_eq_true hadmin
  | issueTokenWithAudience now identityIri scopes =>
    simp only [step] at h
    split_ifs at h with hadmin
    cases h
    refine hs.hold (outside_of_product hpq rfl ?_)
    exact Bool.eq_false_of_not_eq_true hadmin
  | clientCredentials now clientId clientSecret scope audience =>
    simp only [step] at h
    split at h
    · cases h
    · rename_i app happ
      split_ifs at h with hother
      cases h
      obtain ⟨hp, hadmin⟩ := not_or.mp hother
      refine hs.receive fun response hresponse => ?_
      exact outside_of_clientCredentials hdomain hplain hq hpq hs happ (not_not.mp hp)
        (Bool.eq_false_of_not_eq_true hadmin) hresponse
  | exchange now token audience scope =>
    simp only [step] at h
    split_ifs at h with hheld
    cases h
    refine hs.receive fun response hresponse => ?_
    obtain ⟨claims, hverified, hresponse⟩ := bind_eq_ok.mp hresponse
    obtain ⟨hsome, hq', hcluster⟩ := hasks (by rw [hverified]; rfl)
    obtain ⟨aud, rfl⟩ := Option.ne_none_iff_exists'.mp hsome
    cases hresponse
    refine ⟨⟨aud, rfl, fun heq => hq' (congrArg some heq), fun heq => hcluster (congrArg some heq)⟩, ?_⟩
    rw [← claims_of_verifyToken hverified]
    exact (hs.held token hheld).roles

/-- **In every run whose exchanges ask for audiences elsewhere, a holder of tokens for one product
gets no token that is accepted for another product**, as long as no M2M permission leads there. -/
theorem exchange_confined (env : IamEnv) (p q : String) (hdomain : PlainDomain env.iris)
    (hp : PlainName p) (hq : PlainName q) (hpq : p ≠ q)
    (identities : String → Option (List String)) (groups : List StoredGroup)
    (held : List AccessToken)
    (hheld : ∀ token ∈ held, token.claims.aud = some (env.iris.product p) ∧
      token.claims.roles.any isAdminRole = false)
    (actions : List HolderAction) (hapart : ∀ action ∈ actions, KeepsApart env p q action)
    (hasks : StepsMeet (step env p) (AsksElsewhere env q) ⟨.new identities groups, held⟩ actions)
    (h : runSteps (step env p) ⟨.new identities groups, held⟩ actions = some s) :
    ∀ token ∈ s.held, ¬ Accepted env q token := by
  have hnames := stepsMeet_of_forall (step env p) (C := fun _ action => KeepsApart env p q action)
    (fun action hmem _ => hapart action hmem) ⟨.new identities groups, held⟩
  have hstart : Confined env p q ⟨.new identities groups, held⟩ := by
    refine ⟨?_, rfl, rfl, fun token htoken => ?_⟩
    · intro clientId app happ
      cases happ
    · obtain ⟨haud, hroles⟩ := hheld token htoken
      exact outside_of_product hpq haud hroles
  have hend := runSteps_invariant (step env p) (I := Confined env p q)
    (C := fun s action => KeepsApart env p q action ∧ s.AsksElsewhere env q action)
    (fun _ _ _ hs hC => confined_step hdomain hp hq hpq hs hC.1 hC.2) actions _ s hstart
    (hnames.and (step env p) hasks) h
  exact fun token htoken => (hend.held token htoken).not_accepted

/-- A token of a user for the product `photo-app`. -/
def aliceToken : AccessToken :=
  (LocalIdentityProvider.new (fun _ => none) []).issueToken LocalIdentityProvider.sampleIam 0
    ⟨"https://picloud.local/platform/identities/alice"⟩ (some "photo-app")

/-- The token is exchanged for another audience. -/
def exchangeFor (aud : String) : HolderAction :=
  .exchange 60 aliceToken (some aud) (some "users:read")

/-- A token for a third product is not accepted for `user-service`. -/
theorem exchange_confined_elsewhere :
    ¬ ∃ token ∈ (HolderState.receive ⟨.new (fun _ => none) [], [aliceToken]⟩
      (LocalIdentityProvider.tokenExchange LocalIdentityProvider.sampleIam 60 aliceToken
        (some "https://picloud.local/products/billing") (some "users:read"))).held,
      Accepted LocalIdentityProvider.sampleIam "user-service" token := by
  rintro ⟨token, htoken, haccepted⟩
  refine absurd haccepted (exchange_confined LocalIdentityProvider.sampleIam "photo-app" "user-service" ?_ ?_ ?_
    (by decide) (fun _ => none) [] [aliceToken] ?_
    [exchangeFor "https://picloud.local/products/billing"] ?_ ?_ ?_ token htoken)
  · unfold PlainDomain
    decide +kernel
  · unfold PlainName
    decide
  · unfold PlainName
    decide
  · intro token htoken
    rw [List.mem_singleton.mp htoken]
    exact ⟨by decide, by decide⟩
  · intro action haction
    rw [List.mem_singleton.mp haction]
    trivial
  · refine (stepsMeet_singleton _).mpr fun _ => ?_
    decide
  · rw [runSteps_singleton]
    simp [step, exchangeFor]

/-- A token for one product is exchanged for one that is accepted for another product. -/
theorem exchange_reaches_other_product :
    aliceToken.claims.aud = some (LocalIdentityProvider.sampleIam.iris.product "photo-app") ∧
      aliceToken.claims.roles.any isAdminRole = false ∧
      ∃ s, runSteps (step LocalIdentityProvider.sampleIam "photo-app")
          ⟨.new (fun _ => none) [], [aliceToken]⟩
          [exchangeFor "https://picloud.local/products/user-service"] = some s ∧
        ∃ token ∈ s.held, Accepted LocalIdentityProvider.sampleIam "user-service" token := by
  refine ⟨by decide, by decide, HolderState.receive ⟨.new (fun _ => none) [], [aliceToken]⟩
    (LocalIdentityProvider.tokenExchange LocalIdentityProvider.sampleIam 60 aliceToken
      (some "https://picloud.local/products/user-service") (some "users:read")), ?_, ?_⟩
  · rw [runSteps_singleton]
    simp [step, exchangeFor]
  · refine ⟨⟨⟨"https://picloud.local/platform/identities/alice", some "photo-app", [], 60, 3660,
      some "https://picloud.local/products/user-service", ["users:read"], [],
      some "https://picloud.local/platform/identities/alice"⟩, "c2lnbmF0dXJl"⟩, by decide +kernel,
      fun _ => true, 60, ⟨"https://picloud.local/platform/identities/alice", some "photo-app", [],
        some "https://picloud.local/products/user-service", ["users:read"], []⟩, ?_⟩
    rfl

end HolderState

end Picloud
