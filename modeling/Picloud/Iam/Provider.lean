import Picloud.Domain.Payload
import Picloud.Events.Log
import Picloud.Lib.Split
import Picloud.Lib.Steps

/-!
# Identity provider

Reference: `LocalIdentityProvider` of `picloud-iam/src/implementation.rs`: app registrations, M2M
permissions, the client credentials grant with and without an audience, and the authorization code
flow.

What is drawn at random and what is read from the clock is passed in. SHA-256 and HMAC are
parameters: a token is its claims with the signature, in place of the text that encodes both. A hash
map is a function to the entries that it holds.
-/

namespace Picloud

open Lib

/-! ## Data -/

/-- `PiCloudError`, as far as these functions raise it. -/
inductive IamError where
  | unauthenticated
  | permissionDenied (reason : String)
deriving DecidableEq

/-- `TokenClaims`. -/
structure TokenClaims where
  identityIri : String
  product : Option String
  roles : List String
  issuedAt : ℤ
  expiresAt : ℤ
  aud : Option String
  scopes : List String
  permissions : List String
  actor : Option String
deriving DecidableEq

/-- A signed token. -/
structure AccessToken where
  claims : TokenClaims
  signature : String
deriving DecidableEq

/-- `TokenResponse`. -/
structure TokenResponse where
  accessToken : AccessToken
  tokenType : String
  expiresIn : ℤ
  scope : Option String
deriving DecidableEq

/-- `AppRegistration`. -/
structure AppRegistration where
  id : Uuid
  clientId : String
  clientSecretHash : String
  productIri : ResourceIri
  redirectUris : List String
  scopes : List String
deriving DecidableEq

/-- `StoredAppRegistration`. -/
structure StoredAppRegistration where
  registration : AppRegistration
  productName : String
deriving DecidableEq

/-- `M2mPermission`. -/
structure M2mPermission where
  name : String
  /-- The product granting access. -/
  product : String
  /-- The product being granted access. -/
  client : String
  scopes : List String
  description : Option String
deriving DecidableEq

/-- `StoredGroup`, as far as tokens need it. -/
structure StoredGroup where
  roles : List String
  members : List String
deriving DecidableEq

/-- `PendingAuthorizationCode`. -/
structure PendingAuthorizationCode where
  identityIri : ResourceIri
  clientId : String
  redirectUri : String
  scopes : List String
  expiresAt : ℤ
deriving DecidableEq

/-- What the provider is made with: the cluster domain, the time to live of a token, and the two
cryptographic functions. -/
structure IamEnv where
  iris : IriBuilder
  tokenTtlSecs : ℤ
  hashSecret : String → String
  sign : TokenClaims → String

/-- `LocalIdentityProvider`. -/
structure LocalIdentityProvider where
  /-- The roles of the registered identities. -/
  identities : String → Option (List String)
  /-- The groups, in the order of the map. -/
  groups : List StoredGroup
  appRegistrations : String → Option StoredAppRegistration
  m2mPermissions : String → Option M2mPermission
  pendingAuthCodes : String → Option PendingAuthorizationCode

/-! ## Texts -/

/-- `s.split_whitespace()`. -/
def splitWhitespace (s : String) : List String :=
  ((s.toList.splitOnP isWhitespace).filter (· ≠ [])).map String.ofList

/-- The scopes that a request names, none without a scope parameter. -/
def requestedScopes (scope : Option String) : List String := (scope.map splitWhitespace).getD []

/-- `aud.split("/products/").nth(1)`, up to the next slash. -/
def productOf (aud : String) : Option String :=
  (secondPiece "/products/".toList aud.toList).map fun piece =>
    String.ofList (piece.takeWhile (· ≠ '/'))

/-- The key of an M2M permission. -/
def m2mKey (client product : String) : String := client ++ ":" ++ product

/-! ## Tokens -/

namespace LocalIdentityProvider

variable (env : IamEnv) (prov : LocalIdentityProvider)

/-- `LocalIdentityProvider::new`, with the identities and groups that are registered. -/
def new (identities : String → Option (List String)) (groups : List StoredGroup) :
    LocalIdentityProvider :=
  ⟨identities, groups, fun _ => none, fun _ => none, fun _ => none⟩

/-- Append the roles that are not in the list yet. -/
def mergeRoles (roles extra : List String) : List String :=
  extra.foldl (fun roles role => if role ∈ roles then roles else roles ++ [role]) roles

/-- `roles_from_groups`. -/
def rolesFromGroups (identityIri : String) : List String :=
  (prov.groups.filter (identityIri ∈ ·.members)).foldl (fun roles g => mergeRoles roles g.roles) []

/-- `issue_token_with_audience`. -/
def issueTokenWithAudience (now : ℤ) (identityIri : ResourceIri) (audience : String)
    (scopes : List String) : AccessToken :=
  let roles := (prov.identities identityIri.value).getD []
  let claims : TokenClaims := {
    identityIri := identityIri.value
    product := productOf audience
    roles := mergeRoles roles (prov.rolesFromGroups identityIri.value)
    issuedAt := now
    expiresAt := now + env.tokenTtlSecs
    aud := some audience
    scopes := scopes
    permissions := []
    actor := none }
  ⟨claims, env.sign claims⟩

/-- The client of the credentials: unknown clients and wrong secrets are not told apart. -/
def authenticate (clientId clientSecret : String) : Except IamError StoredAppRegistration :=
  match prov.appRegistrations clientId with
  | none => .error .unauthenticated
  | some app =>
    if env.hashSecret clientSecret ≠ app.registration.clientSecretHash then .error .unauthenticated
    else .ok app

/-! ## M2M permissions -/

/-- `register_m2m_permission`. -/
def registerM2mPermission (permission : M2mPermission) : LocalIdentityProvider :=
  let key := m2mKey permission.client permission.product
  { prov with m2mPermissions := Function.update prov.m2mPermissions key (some permission) }

/-- `check_m2m_permission`. -/
def checkM2mPermission (clientProduct targetProduct : String) (scopes : List String) :
    Except IamError Unit :=
  match prov.m2mPermissions (m2mKey clientProduct targetProduct) with
  | none => .error (.permissionDenied ("no M2M permission declared for " ++ clientProduct ++
      " to access " ++ targetProduct))
  | some permission =>
    match scopes.find? (· ∉ permission.scopes) with
    | some scope => .error (.permissionDenied ("M2M scope '" ++ scope ++ "' not granted for " ++
        clientProduct ++ " → " ++ targetProduct))
    | none => .ok ()

/-! ## Client credentials -/

/-- The scopes of a self-scoped token: all registered ones when none are requested. -/
def grantedScopes (registered : List String) : Option String → Except IamError (List String)
  | none => .ok registered
  | some scope =>
    match (splitWhitespace scope).find? (· ∉ registered) with
    | some requested => .error (.permissionDenied
        ("scope '" ++ requested ++ "' is not registered for this client"))
    | none => .ok (splitWhitespace scope)

/-- `client_credentials_token`. -/
def clientCredentialsToken (now : ℤ) (clientId clientSecret : String) (scope : Option String) :
    Except IamError TokenResponse := do
  let app ← prov.authenticate env clientId clientSecret
  let granted ← grantedScopes app.registration.scopes scope
  let audience := env.iris.product app.productName
  pure {
    accessToken := prov.issueTokenWithAudience env now app.registration.productIri audience granted
    tokenType := "Bearer"
    expiresIn := env.tokenTtlSecs
    scope := some (" ".intercalate granted) }

/-- `client_credentials_token_with_audience`. The permission is checked when the audience is not the
product of the client. -/
def clientCredentialsTokenWithAudience (now : ℤ) (clientId clientSecret : String)
    (scope audience : Option String) : Except IamError TokenResponse := do
  let app ← prov.authenticate env clientId clientSecret
  match audience with
  | some aud =>
    let targetProduct := (productOf aud).getD aud
    if targetProduct ≠ app.productName then
      prov.checkM2mPermission app.productName targetProduct (requestedScopes scope)
    pure {
      accessToken := prov.issueTokenWithAudience env now app.registration.productIri aud
        (requestedScopes scope)
      tokenType := "Bearer"
      expiresIn := env.tokenTtlSecs
      scope := some (" ".intercalate (requestedScopes scope)) }
  | none => prov.clientCredentialsToken env now clientId clientSecret scope

/-! ## App registrations and authorization codes -/

/-- `register_app`: the new state, and the registration with the secret in place of its hash. -/
def registerApp (clientUuid id : Uuid) (clientSecret : String) (productIri : ResourceIri)
    (redirectUris scopes : List String) : AppRegistration × LocalIdentityProvider :=
  let clientId := "picloud-" ++ clientUuid.display
  let registration : AppRegistration :=
    ⟨id, clientId, env.hashSecret clientSecret, productIri, redirectUris, scopes⟩
  let stored : StoredAppRegistration := ⟨registration, lastSegment productIri.value⟩
  ({ registration with clientSecretHash := clientSecret },
    { prov with appRegistrations := Function.update prov.appRegistrations clientId (some stored) })

/-- `begin_authorization_code`. The scopes are not looked at. -/
def beginAuthorizationCode (now : ℤ) (code clientId redirectUri : String) (scope : Option String)
    (identityIri : ResourceIri) : Except IamError String × LocalIdentityProvider :=
  match prov.appRegistrations clientId with
  | none => (.error .unauthenticated, prov)
  | some _ =>
    let pending : PendingAuthorizationCode :=
      ⟨identityIri, clientId, redirectUri, requestedScopes scope, now + 600⟩
    (.ok code, { prov with
      pendingAuthCodes := Function.update prov.pendingAuthCodes code (some pending) })

/-- The token for a code that has been taken out. -/
def redeem (now : ℤ) (pending : PendingAuthorizationCode) (clientId : String) :
    Except IamError TokenResponse :=
  if now ≥ pending.expiresAt then .error .unauthenticated
  else if pending.clientId ≠ clientId then .error .unauthenticated
  else match prov.appRegistrations clientId with
    | none => .error .unauthenticated
    | some app =>
      let audience := env.iris.product app.productName
      .ok {
        accessToken := prov.issueTokenWithAudience env now pending.identityIri audience pending.scopes
        tokenType := "Bearer"
        expiresIn := env.tokenTtlSecs
        scope := if pending.scopes = [] then none else some (" ".intercalate pending.scopes) }

/-- `exchange_authorization_code`. A code is used up even when the exchange fails. -/
def exchangeAuthorizationCode (now : ℤ) (code clientId : String) :
    Except IamError TokenResponse × LocalIdentityProvider :=
  match prov.pendingAuthCodes code with
  | none => (.error .unauthenticated, prov)
  | some pending => (prov.redeem env now pending clientId,
      { prov with pendingAuthCodes := Function.update prov.pendingAuthCodes code none })

end LocalIdentityProvider

/-! ## Requests -/

/-- The requests, with what is drawn or read from the clock on the way. -/
inductive IamRequest where
  | registerApp (clientUuid id : Uuid) (clientSecret : String) (productIri : ResourceIri)
      (redirectUris scopes : List String)
  | registerM2mPermission (permission : M2mPermission)
  | clientCredentialsToken (now : ℤ) (clientId clientSecret : String) (scope : Option String)
  | clientCredentialsTokenWithAudience (now : ℤ) (clientId clientSecret : String)
      (scope audience : Option String)
  | beginAuthorizationCode (now : ℤ) (code clientId redirectUri : String) (scope : Option String)
      (identityIri : ResourceIri)
  | exchangeAuthorizationCode (now : ℤ) (code clientId redirectUri : String)

/-- The answers. -/
inductive IamReply where
  | app (registration : AppRegistration)
  | stored
  | token (clientId : String) (result : Except IamError TokenResponse)
  | code (result : Except IamError String)

namespace LocalIdentityProvider

variable (env : IamEnv) (prov : LocalIdentityProvider)

/-- The answer to a request, and the provider after it. -/
def handle : IamRequest → IamReply × LocalIdentityProvider
  | .registerApp clientUuid id clientSecret productIri redirectUris scopes =>
    let result := prov.registerApp env clientUuid id clientSecret productIri redirectUris scopes
    (.app result.1, result.2)
  | .registerM2mPermission permission => (.stored, prov.registerM2mPermission permission)
  | .clientCredentialsToken now clientId clientSecret scope =>
    (.token clientId (prov.clientCredentialsToken env now clientId clientSecret scope), prov)
  | .clientCredentialsTokenWithAudience now clientId clientSecret scope audience =>
    (.token clientId
      (prov.clientCredentialsTokenWithAudience env now clientId clientSecret scope audience), prov)
  | .beginAuthorizationCode now code clientId redirectUri scope identityIri =>
    let result := prov.beginAuthorizationCode now code clientId redirectUri scope identityIri
    (.code result.1, result.2)
  | .exchangeAuthorizationCode now code clientId _ =>
    let result := prov.exchangeAuthorizationCode env now code clientId
    (.token clientId result.1, result.2)

/-- The provider after a request; every request is answered. -/
def step (request : IamRequest) : Option LocalIdentityProvider := some (prov.handle env request).2

/-- The token that a request issues, with the client that it is issued to. -/
def issued (request : IamRequest) : Option (String × TokenClaims) :=
  match (prov.handle env request).1 with
  | .token clientId (.ok response) => some (clientId, response.accessToken.claims)
  | _ => none

end LocalIdentityProvider

end Picloud
