import Picloud.Iam.Provider

/-!
# Scopes are granted by declaration

A token for the product of its client should carry registered scopes only, and a token for another
product only scopes of a stored M2M permission between the two. The permission is found by splitting
the audience, which is right when the domain does not look like a part of the pattern; the registered
scopes are checked on one of the three ways to a token for the own product. Elsewhere it is up to the
request to ask for registered scopes only.
-/

namespace Picloud

open Lib

/-! ## What is claimed, and the condition -/

/-- A product name without the separators of IRIs and of permission keys. Every slug is one. -/
def PlainName (name : String) : Prop := '/' ∉ name.toList ∧ ':' ∉ name.toList

/-- The product names of a request are plain, and an app is registered for a product of the
cluster. -/
def IamRequest.Plain (env : IamEnv) : IamRequest → Prop
  | .registerApp _ _ _ productIri _ _ =>
    ∃ name, PlainName name ∧ productIri.value = env.iris.product name
  | .registerM2mPermission permission => PlainName permission.client ∧ PlainName permission.product
  | _ => True

namespace LocalIdentityProvider

/-- The scopes of a token have been declared: for the product of the client, in its registration; for
another product, in a stored M2M permission. -/
structure Declared (env : IamEnv) (prov : LocalIdentityProvider) (app : StoredAppRegistration)
    (claims : TokenClaims) : Prop where
  own : claims.aud = some app.registration.productIri.value →
    ∀ scope ∈ claims.scopes, scope ∈ app.registration.scopes
  other : ∀ q, PlainName q → claims.aud = some (env.iris.product q) →
    env.iris.product q ≠ app.registration.productIri.value →
      ∃ key permission, prov.m2mPermissions key = some permission ∧
        permission.client = app.productName ∧ permission.product = q ∧
        ∀ scope ∈ claims.scopes, scope ∈ permission.scopes

/-- Every token that the request issues goes to a registered client, and its scopes have been
declared. -/
def IssuesDeclared (env : IamEnv) (prov : LocalIdentityProvider) (request : IamRequest) : Prop :=
  ∀ clientId claims, prov.issued env request = some (clientId, claims) →
    ∃ app, prov.appRegistrations clientId = some app ∧ Declared env prov app claims

/-- The request asks for registered scopes where they are not checked: with the product of the client
as audience, and at the start of the authorization code flow. -/
def AsksRegistered (env : IamEnv) (prov : LocalIdentityProvider) : IamRequest → Prop
  | .clientCredentialsTokenWithAudience _ clientId clientSecret scope audience =>
    ∀ app, prov.authenticate env clientId clientSecret = .ok app →
      audience = some app.registration.productIri.value →
        ∀ s ∈ requestedScopes scope, s ∈ app.registration.scopes
  | .beginAuthorizationCode _ _ clientId _ scope _ =>
    ∀ app, prov.appRegistrations clientId = some app →
      ∀ s ∈ requestedScopes scope, s ∈ app.registration.scopes
  | _ => True

/-- `Uuid::new_v4` draws an id that is not in use. -/
def DrawsFreshId (prov : LocalIdentityProvider) : IamRequest → Prop
  | .registerApp clientUuid _ _ _ _ _ =>
    prov.appRegistrations ("picloud-" ++ clientUuid.display) = none
  | _ => True

end LocalIdentityProvider

/-- The pattern of the audience does not begin in the domain. -/
def PlainDomain (iris : IriBuilder) : Prop :=
  ¬ "/products/".toList <:+: ("https://" ++ iris.domain ++ "/products").toList

/-! ## Names and keys -/

theorem toList_product (iris : IriBuilder) (q : String) : (iris.product q).toList =
    ("https://" ++ iris.domain).toList ++ "/products/".toList ++ q.toList := by
  simp [IriBuilder.product]

variable {q : String}

theorem product_injective (iris : IriBuilder) {p : String} (h : iris.product p = iris.product q) :
    p = q := by
  have hlist := congrArg String.toList h
  rw [toList_product, toList_product] at hlist
  exact String.toList_inj.mp (List.append_cancel_left hlist)

/-- The audience of a product is split into its name. -/
theorem productOf_product {iris : IriBuilder} (hdomain : PlainDomain iris) (hq : PlainName q) :
    productOf (iris.product q) = some q := by
  have hpattern : ¬ "/products/".toList <:+:
      ("https://" ++ iris.domain).toList ++ "/products/".toList.dropLast := by
    have hlast : "/products/".toList.dropLast = "/products".toList := by decide
    rw [hlast, ← String.toList_append]
    exact hdomain
  rw [productOf, toList_product, secondPiece_append (c := '/') (by decide) hpattern hq.1,
    Option.map_some, List.takeWhile_eq_self_iff.mpr]
  · rw [String.ofList_toList]
  · intro c hc
    simpa using fun heq : c = '/' => hq.1 (heq ▸ hc)

/-- The last segment of the IRI of a product is its name. -/
theorem lastSegment_product (iris : IriBuilder) (hq : PlainName q) :
    lastSegment (iris.product q) = q := by
  have hslash : "/products/" = "/products" ++ "/" := by decide
  rw [IriBuilder.product, hslash, ← String.append_assoc, lastSegment_append _ hq.1]

theorem m2mKey_inj {c c' p p' : String} (hc : PlainName c) (hp : PlainName p)
    (h : m2mKey c p = m2mKey c' p') : c = c' ∧ p = p' := by
  have hlist : c.toList ++ ':' :: p.toList = c'.toList ++ ':' :: p'.toList := by
    simpa [m2mKey] using congrArg String.toList h
  obtain ⟨hfst, -, hsnd⟩ := (List.append_cons_inj_of_notMem hc.2 hp.2).mp hlist
  exact ⟨String.toList_inj.mp hfst, String.toList_inj.mp hsnd⟩

/-! ## What the functions return -/

theorem bind_eq_ok {ε α β : Type} {x : Except ε α} {f : α → Except ε β} {b : β} :
    (x >>= f) = .ok b ↔ ∃ a, x = .ok a ∧ f a = .ok b := by
  cases x with
  | error e => simp [bind, Except.bind]
  | ok a => simp [bind, Except.bind]

theorem mem_of_find?_eq_none {scopes allowed : List String}
    (h : scopes.find? (· ∉ allowed) = none) : ∀ scope ∈ scopes, scope ∈ allowed := by
  simpa [List.find?_eq_none] using h

namespace LocalIdentityProvider

variable {env : IamEnv} {prov : LocalIdentityProvider} {clientId clientSecret : String} {now : ℤ}
  {app : StoredAppRegistration} {scope audience : Option String} {response : TokenResponse}

theorem registered_of_authenticate (h : prov.authenticate env clientId clientSecret = .ok app) :
    prov.appRegistrations clientId = some app := by
  unfold authenticate at h
  split at h
  · cases h
  · rename_i found hfound
    split_ifs at h
    cases h
    exact hfound

variable {scopes : List String}

/-- A permission that has been checked is stored and has the scopes. -/
theorem stored_of_checkM2mPermission {client target : String}
    (h : prov.checkM2mPermission client target scopes = .ok ()) :
    ∃ permission, prov.m2mPermissions (m2mKey client target) = some permission ∧
      ∀ s ∈ scopes, s ∈ permission.scopes := by
  unfold checkM2mPermission at h
  split at h
  · cases h
  · rename_i permission hstored
    split at h
    · cases h
    · rename_i hfind
      exact ⟨permission, hstored, mem_of_find?_eq_none hfind⟩

theorem registered_of_grantedScopes {registered granted : List String}
    (h : grantedScopes registered scope = .ok granted) : ∀ s ∈ granted, s ∈ registered := by
  unfold grantedScopes at h
  split at h
  · cases h
    exact fun s hs => hs
  · split at h
    · cases h
    · rename_i hfind
      cases h
      exact mem_of_find?_eq_none hfind

/-- A self-scoped token. -/
theorem of_clientCredentialsToken
    (h : prov.clientCredentialsToken env now clientId clientSecret scope = .ok response) :
    ∃ app, prov.appRegistrations clientId = some app ∧
      response.accessToken.claims.aud = some (env.iris.product app.productName) ∧
      ∀ s ∈ response.accessToken.claims.scopes, s ∈ app.registration.scopes := by
  obtain ⟨app, hauth, h⟩ := bind_eq_ok.mp h
  obtain ⟨granted, hgranted, h⟩ := bind_eq_ok.mp h
  cases h
  exact ⟨app, registered_of_authenticate hauth, rfl, registered_of_grantedScopes hgranted⟩

/-- A token for an audience. -/
theorem of_clientCredentialsTokenWithAudience {aud : String}
    (h : prov.clientCredentialsTokenWithAudience env now clientId clientSecret scope (some aud) =
      .ok response) :
    ∃ app, prov.authenticate env clientId clientSecret = .ok app ∧
      response.accessToken = prov.issueTokenWithAudience env now app.registration.productIri aud
        (requestedScopes scope) ∧
      ((productOf aud).getD aud ≠ app.productName →
        prov.checkM2mPermission app.productName ((productOf aud).getD aud)
          (requestedScopes scope) = .ok ()) := by
  obtain ⟨app, hauth, h⟩ := bind_eq_ok.mp h
  refine ⟨app, hauth, ?_⟩
  by_cases htarget : (productOf aud).getD aud = app.productName
  · simp only [htarget, ne_eq, not_true_eq_false, if_false] at h
    cases h
    exact ⟨rfl, fun hne => absurd htarget hne⟩
  · simp only [ne_eq, htarget, not_false_eq_true, if_true] at h
    obtain ⟨⟨⟩, hcheck, h⟩ := bind_eq_ok.mp h
    cases h
    exact ⟨rfl, fun _ => hcheck⟩

/-- A token for an authorization code. -/
theorem of_redeem {pending : PendingAuthorizationCode}
    (h : prov.redeem env now pending clientId = .ok response) :
    ∃ app, prov.appRegistrations clientId = some app ∧ pending.clientId = clientId ∧
      response.accessToken.claims.aud = some (env.iris.product app.productName) ∧
      response.accessToken.claims.scopes = pending.scopes := by
  unfold redeem at h
  by_cases hexpired : now ≥ pending.expiresAt
  · rw [if_pos hexpired] at h
    cases h
  · by_cases hclient : pending.clientId = clientId
    · rw [if_neg hexpired, if_neg (not_not.mpr hclient)] at h
      cases happ : prov.appRegistrations clientId with
      | none =>
        rw [happ] at h
        cases h
      | some app =>
        rw [happ] at h
        cases h
        exact ⟨app, rfl, hclient, rfl, rfl⟩
    · rw [if_neg hexpired, if_pos hclient] at h
      cases h

/-! ## Runs -/

/-- What every run keeps: apps are registered for products of the cluster, permissions are stored
under their key, and a pending code asks for scopes of its client. -/
structure Sound (env : IamEnv) (prov : LocalIdentityProvider) : Prop where
  apps : ∀ clientId app, prov.appRegistrations clientId = some app →
    PlainName app.productName ∧ app.registration.productIri.value = env.iris.product app.productName
  permissions : ∀ key permission, prov.m2mPermissions key = some permission →
    key = m2mKey permission.client permission.product ∧
      PlainName permission.client ∧ PlainName permission.product
  codes : ∀ code pending, prov.pendingAuthCodes code = some pending →
    ∃ app, prov.appRegistrations pending.clientId = some app ∧
      ∀ s ∈ pending.scopes, s ∈ app.registration.scopes

theorem sound_new (env : IamEnv) (identities : String → Option (List String))
    (groups : List StoredGroup) : Sound env (new identities groups) := by
  refine ⟨?_, ?_, ?_⟩ <;> simp [new]

variable {request : IamRequest}

theorem sound_registerApp {clientUuid id : Uuid} {productIri : ResourceIri}
    {redirectUris : List String} (hs : Sound env prov)
    (hfresh : prov.appRegistrations ("picloud-" ++ clientUuid.display) = none)
    (hplain : ∃ name, PlainName name ∧ productIri.value = env.iris.product name) :
    Sound env
      (prov.registerApp env clientUuid id clientSecret productIri redirectUris scopes).2 where
  apps c a h := by
    by_cases hc : c = "picloud-" ++ clientUuid.display
    · subst hc
      obtain ⟨name, hname, hiri⟩ := hplain
      simp only [registerApp, Function.update_self, Option.some.injEq] at h
      subst h
      simp only [hiri, lastSegment_product env.iris hname]
      exact ⟨hname, trivial⟩
    · simp only [registerApp, Function.update_of_ne hc] at h
      exact hs.apps c a h
  permissions := hs.permissions
  codes code pending h := by
    obtain ⟨a, ha, hscopes⟩ := hs.codes code pending h
    -- the client of a pending code is registered, so that the fresh id is not its
    have hne : pending.clientId ≠ "picloud-" ++ clientUuid.display := by
      intro heq
      rw [heq, hfresh] at ha
      cases ha
    exact ⟨a, by simpa only [registerApp, Function.update_of_ne hne] using ha, hscopes⟩

theorem sound_registerM2mPermission {permission : M2mPermission} (hs : Sound env prov)
    (hplain : PlainName permission.client ∧ PlainName permission.product) :
    Sound env (prov.registerM2mPermission permission) where
  apps := hs.apps
  permissions key p h := by
    by_cases hkey : key = m2mKey permission.client permission.product
    · subst hkey
      simp only [registerM2mPermission, Function.update_self, Option.some.injEq] at h
      subst h
      exact ⟨rfl, hplain⟩
    · simp only [registerM2mPermission, Function.update_of_ne hkey] at h
      exact hs.permissions key p h
  codes := hs.codes

/-- Another table of pending codes. -/
theorem Sound.withCodes {codes : String → Option PendingAuthorizationCode} (hs : Sound env prov)
    (h : ∀ code pending, codes code = some pending →
      prov.pendingAuthCodes code = some pending ∨
        ∃ app, prov.appRegistrations pending.clientId = some app ∧
          ∀ s ∈ pending.scopes, s ∈ app.registration.scopes) :
    Sound env { prov with pendingAuthCodes := codes } where
  apps := hs.apps
  permissions := hs.permissions
  codes code pending hcode := (h code pending hcode).elim (hs.codes code pending) id

/-- The invariant is kept by every request that draws a fresh id and asks for registered scopes. -/
theorem sound_handle (hs : Sound env prov) (hplain : request.Plain env)
    (hfresh : prov.DrawsFreshId request) (hasks : prov.AsksRegistered env request) :
    Sound env (prov.handle env request).2 := by
  cases request with
  | registerApp clientUuid id clientSecret productIri redirectUris scopes =>
    exact sound_registerApp hs hfresh hplain
  | registerM2mPermission permission => exact sound_registerM2mPermission hs hplain
  | clientCredentialsToken now clientId clientSecret scope => exact hs
  | clientCredentialsTokenWithAudience now clientId clientSecret scope audience => exact hs
  | beginAuthorizationCode now code clientId redirectUri scope identityIri =>
    show Sound env (prov.beginAuthorizationCode now code clientId redirectUri scope identityIri).2
    unfold beginAuthorizationCode
    split
    · exact hs
    · rename_i app happ
      refine hs.withCodes fun c pending hc => ?_
      by_cases hcode : c = code
      · subst hcode
        rw [Function.update_self, Option.some.injEq] at hc
        subst hc
        exact Or.inr ⟨app, happ, hasks app happ⟩
      · rw [Function.update_of_ne hcode] at hc
        exact Or.inl hc
  | exchangeAuthorizationCode now code clientId redirectUri =>
    show Sound env (prov.exchangeAuthorizationCode env now code clientId).2
    unfold exchangeAuthorizationCode
    split
    · exact hs
    · refine hs.withCodes fun c pending hc => ?_
      by_cases hcode : c = code
      · subst hcode
        rw [Function.update_self] at hc
        cases hc
      · rw [Function.update_of_ne hcode] at hc
        exact Or.inl hc

/-- A token for the product of its client, with registered scopes. -/
theorem declared_of_own {claims : TokenClaims} (hs : Sound env prov)
    (happ : prov.appRegistrations clientId = some app)
    (haud : claims.aud = some (env.iris.product app.productName))
    (hscopes : ∀ s ∈ claims.scopes, s ∈ app.registration.scopes) : Declared env prov app claims where
  own _ := hscopes
  other q _ hq hne := by
    rw [haud, Option.some.injEq] at hq
    exact absurd (hq.symm.trans (hs.apps clientId app happ).2.symm) hne

/-- A token for an audience: the permission of another product has been checked. -/
theorem declared_of_audience {claims : TokenClaims} {aud : String} (hdomain : PlainDomain env.iris)
    (hs : Sound env prov) (happ : prov.appRegistrations clientId = some app)
    (haud : claims.aud = some aud) (hscopes : claims.scopes = scopes)
    (hown : aud = app.registration.productIri.value → ∀ s ∈ scopes, s ∈ app.registration.scopes)
    (hcheck : (productOf aud).getD aud ≠ app.productName →
      prov.checkM2mPermission app.productName ((productOf aud).getD aud) scopes = .ok ()) :
    Declared env prov app claims where
  own h := by
    rw [haud, Option.some.injEq] at h
    rw [hscopes]
    exact hown h
  other q hq h hne := by
    rw [haud, Option.some.injEq] at h
    subst h
    obtain ⟨hname, hiri⟩ := hs.apps clientId app happ
    have htarget : (productOf (env.iris.product q)).getD (env.iris.product q) = q := by
      rw [productOf_product hdomain hq]
      rfl
    rw [htarget] at hcheck
    have hother : q ≠ app.productName := by
      rintro rfl
      exact hne hiri.symm
    obtain ⟨permission, hstored, hall⟩ := stored_of_checkM2mPermission (hcheck hother)
    obtain ⟨hkey, -, -⟩ := hs.permissions _ permission hstored
    obtain ⟨hclient, hproduct⟩ := m2mKey_inj hname hq hkey
    exact ⟨_, permission, hstored, hclient.symm, hproduct.symm, hscopes ▸ hall⟩

/-- Every token that such a request issues has declared scopes. -/
theorem issuesDeclared_of_sound (hdomain : PlainDomain env.iris) (hs : Sound env prov)
    (hasks : prov.AsksRegistered env request) : prov.IssuesDeclared env request := by
  have hself : ∀ {now clientId clientSecret scope response},
      prov.clientCredentialsToken env now clientId clientSecret scope = .ok response →
        ∃ app, prov.appRegistrations clientId = some app ∧
          Declared env prov app response.accessToken.claims := by
    intro now clientId clientSecret scope response h
    obtain ⟨app, happ, haud, hscopes⟩ := of_clientCredentialsToken h
    exact ⟨app, happ, declared_of_own hs happ haud hscopes⟩
  intro clientId claims hissued
  unfold issued at hissued
  split at hissued
  · rename_i c response hreply
    cases hissued
    cases request with
    | registerApp clientUuid id clientSecret productIri redirectUris scopes => cases hreply
    | registerM2mPermission permission => cases hreply
    | clientCredentialsToken now c clientSecret scope =>
      obtain ⟨rfl, h⟩ := IamReply.token.inj hreply
      exact hself h
    | clientCredentialsTokenWithAudience now c clientSecret scope audience =>
      obtain ⟨rfl, h⟩ := IamReply.token.inj hreply
      cases audience with
      | none =>
        obtain ⟨app, -, h⟩ := bind_eq_ok.mp h
        exact hself h
      | some aud =>
        obtain ⟨app, hauth, htoken, hcheck⟩ := of_clientCredentialsTokenWithAudience h
        have happ := registered_of_authenticate hauth
        rw [htoken]
        exact ⟨app, happ, declared_of_audience hdomain hs happ rfl rfl
          (fun hown => hasks app hauth (congrArg some hown)) hcheck⟩
    | beginAuthorizationCode now code c redirectUri scope identityIri => cases hreply
    | exchangeAuthorizationCode now code c redirectUri =>
      obtain ⟨rfl, h⟩ := IamReply.token.inj hreply
      unfold exchangeAuthorizationCode at h
      split at h
      · cases h
      · rename_i pending hpending
        obtain ⟨app, happ, rfl, haud, hscopes⟩ := of_redeem h
        obtain ⟨app', happ', hregistered⟩ := hs.codes code pending hpending
        obtain rfl : app = app' := Option.some.inj (happ.symm.trans happ')
        exact ⟨app, happ, declared_of_own hs happ haud (hscopes ▸ hregistered)⟩
  · cases hissued

/-- **In every run over a plain domain whose requests ask for registered scopes where they are not
checked, every token that is issued has declared scopes.** -/
theorem scopes_declared (env : IamEnv) (identities : String → Option (List String))
    (groups : List StoredGroup) (requests : List IamRequest) (hdomain : PlainDomain env.iris)
    (hplain : ∀ request ∈ requests, request.Plain env)
    (hfresh : StepsMeet (step env) DrawsFreshId (new identities groups) requests)
    (hasks : StepsMeet (step env) (AsksRegistered env) (new identities groups) requests) :
    StepsMeet (step env) (IssuesDeclared env) (new identities groups) requests := by
  have hnames := stepsMeet_of_forall (step env) (C := fun _ request => request.Plain env)
    (fun request hmem _ => hplain request hmem) (new identities groups)
  refine ((hnames.and (step env) hfresh).and (step env) hasks).of_invariant (step env) ?_ ?_
    (sound_new env identities groups)
  · rintro prov request prov' hs ⟨⟨hname, hdraw⟩, hask⟩ hstep
    cases hstep
    exact sound_handle hs hname hdraw hask
  · rintro prov request hs ⟨-, hask⟩
    exact issuesDeclared_of_sound hdomain hs hask

/-! ## A run that meets the condition, and one that does not -/

/-- The secret of 32 zero bytes. -/
def sampleSecret : String := "AAAAAAAAAAAAAAAAAAAAAAAAAAAAAAAAAAAAAAAAAAA"

/-- A provider that knows the hash of this secret. -/
def sampleIam : IamEnv where
  iris := ⟨"picloud.local"⟩
  tokenTtlSecs := 3600
  hashSecret s := if s = sampleSecret then "DwBzhbb51LfusnSGBa_hqYSgo7-j8BTQnip4TOnlzRo" else ""
  sign _ := "c2lnbmF0dXJl"

/-- The client that is registered first. -/
def sampleClient : String := "picloud-" ++ Uuid.display 7

/-- An app is registered for a product, with one scope. -/
def registerPhotoApp : IamRequest :=
  .registerApp 7 8 sampleSecret ⟨"https://picloud.local/products/photo-app"⟩ [] ["photos:read"]

/-- Another product lets it in with one scope. -/
def allowPhotoApp : IamRequest :=
  .registerM2mPermission ⟨"allow-photo-app-read", "user-service", "photo-app", ["users:read"], none⟩

/-- The app asks for a token. -/
def askFor (scope aud : String) : IamRequest :=
  .clientCredentialsTokenWithAudience 0 sampleClient sampleSecret (some scope) (some aud)

/-- A client gets a token for another product. -/
theorem scopes_declared_m2m :
    ((runSteps (step sampleIam) (new (fun _ => none) []) [registerPhotoApp, allowPhotoApp]).bind
      fun prov => (prov.issued sampleIam
        (askFor "users:read" "https://picloud.local/products/user-service")).map
          fun token => (token.2.aud, token.2.scopes)) =
        some (some "https://picloud.local/products/user-service", ["users:read"]) ∧
      StepsMeet (step sampleIam) (IssuesDeclared sampleIam) (new (fun _ => none) [])
        [registerPhotoApp, allowPhotoApp,
          askFor "users:read" "https://picloud.local/products/user-service"] := by
  refine ⟨by decide +kernel, scopes_declared sampleIam (fun _ => none) [] _ ?_ ?_ ?_ ?_⟩
  · unfold PlainDomain
    decide +kernel
  · intro request hrequest
    simp only [List.mem_cons, List.not_mem_nil, or_false] at hrequest
    rcases hrequest with rfl | rfl | rfl
    · exact ⟨"photo-app", by unfold PlainName; decide, by decide⟩
    · exact ⟨by unfold PlainName; decide, by unfold PlainName; decide⟩
    · trivial
  · exact ⟨rfl, trivial, trivial, trivial⟩
  · refine ⟨trivial, trivial, fun app hauth haud => ?_, trivial⟩
    have happ := registered_of_authenticate hauth
    have hiri : (some app).map (·.registration.productIri.value) =
        some "https://picloud.local/products/photo-app" := by
      rw [← happ]
      decide +kernel
    rw [Option.map_some, Option.some.injEq] at hiri
    rw [hiri] at haud
    exact absurd haud (by decide)

/-- A client gets a token for its own product with a scope that nobody has registered. -/
theorem unregistered_scope_granted :
    ((runSteps (step sampleIam) (new (fun _ => none) []) [registerPhotoApp]).bind fun prov =>
      (prov.issued sampleIam (askFor "admin" "https://picloud.local/products/photo-app")).map
        fun token => (token.2.aud, token.2.scopes)) =
        some (some "https://picloud.local/products/photo-app", ["admin"]) ∧
      ¬ StepsMeet (step sampleIam) (IssuesDeclared sampleIam) (new (fun _ => none) [])
        [registerPhotoApp, askFor "admin" "https://picloud.local/products/photo-app"] := by
  refine ⟨by decide +kernel, fun h => ?_⟩
  have hdeclared : IssuesDeclared sampleIam
      ((new (fun _ => none) []).handle sampleIam registerPhotoApp).2
      (askFor "admin" "https://picloud.local/products/photo-app") := h.2.1
  obtain ⟨app, happ, hdecl⟩ := hdeclared sampleClient
    ⟨"https://picloud.local/products/photo-app", some "photo-app", [], 0, 3600,
      some "https://picloud.local/products/photo-app", ["admin"], [], none⟩ (by decide +kernel)
  have hregistration : (some app).map (fun app =>
      (app.registration.productIri.value, app.registration.scopes)) =
        some ("https://picloud.local/products/photo-app", ["photos:read"]) := by
    rw [← happ]
    decide +kernel
  rw [Option.map_some, Option.some.injEq, Prod.mk.injEq] at hregistration
  have hscope := hdecl.own (congrArg some hregistration.1.symm) "admin" (by decide)
  rw [hregistration.2] at hscope
  exact absurd hscope (by decide)

end LocalIdentityProvider

end Picloud
