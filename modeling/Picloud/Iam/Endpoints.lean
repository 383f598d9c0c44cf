import Picloud.Domain.Http
import Picloud.Iam.Ceremonies

/-!
# The endpoints of the passkeys

Reference: `handle_register_begin`, `handle_register_complete`, `handle_login_begin`,
`handle_login_complete`, `handle_enroll` and `handle_admin_reset` of
`picloud-http/src/implementation.rs`.

A handler looks at its request, calls the provider and turns the result into a response. None of the
six reads a header. Requests are handled concurrently, as the calls of the ceremonies are.
-/

namespace Picloud

open Lib

/-! ## Requests -/

/-- A request, with what the provider draws at random for it. -/
inductive PasskeyRequest where
  | registerBegin (identityIri : String) (challengeBytes : Bytes) (challengeId : String)
  | registerComplete (challengeId : String) (response : RegistrationResponse)
  | loginBegin (identityIri : String) (challengeBytes : Bytes) (challengeId : String)
  | loginComplete (challengeId : String) (response : AuthenticationResponse)
  | enroll (token : String) (adminId : Uuid) (challengeBytes : Bytes) (challengeId : String)
  | adminReset (username : Option String) (challengeBytes : Bytes) (challengeId : String)

/-- What the handlers read from the state of the server, and what they take from other crates. -/
structure PasskeyServer where
  hasIam : Bool
  iris : IriBuilder
  /-- `Url::parse` of a text succeeds. -/
  isUrl : String → Bool
  rfc3339 : ℤ → String
  tokenText : AccessToken → String
  env : PasskeyEnv

namespace PasskeyServer

variable (srv : PasskeyServer)

/-- `ResourceIri::new`. -/
def newIri (text : String) : Except String ResourceIri :=
  if srv.isUrl text then .ok ⟨text⟩ else .error ("Invalid IRI: " ++ text)

/-- The identity of a user name. -/
def userIri (username : String) : String := srv.iris.resource "platform" "identities" username

/-- The identity that `handle_register_begin` takes a text for. -/
def registerIri (text : String) : String :=
  let startsWith (part : String) : Bool := part.toList.isPrefixOf text.toList
  if startsWith "http://" || startsWith "https://" then text else srv.userIri text

end PasskeyServer

namespace PasskeyRequest

variable (srv : PasskeyServer)

/-- An IRI that is no URL is refused before the provider is called. -/
def withIri (message text : String) (call : ResourceIri → CeremonyCall) :
    Except HttpResponse CeremonyCall :=
  match srv.newIri text with
  | .error e => .error (.error 400 (message ++ e))
  | .ok iri => .ok (call iri)

/-- The call of the provider that a handler makes, or the response without one. -/
def call (req : PasskeyRequest) : Except HttpResponse CeremonyCall :=
  if !srv.hasIam then .error (.error 503 "identity provider not available")
  else match req with
  | .registerBegin text bytes id =>
    withIri srv "invalid IRI: " (srv.registerIri text) fun iri => .beginRegistration iri bytes id
  | .registerComplete id response => .ok (.completeRegistration id response)
  | .loginBegin text bytes id =>
    withIri srv "invalid IRI: " text fun iri => .beginAuthentication iri bytes id
  | .loginComplete id response => .ok (.completeAuthentication id response)
  | .enroll token adminId bytes id => .ok (.enrollWithToken token adminId bytes id)
  | .adminReset username bytes id =>
    if username.getD "" = "" then .error (.error 400 "username is required")
    else withIri srv "invalid identity IRI: " (srv.userIri (username.getD "")) fun iri =>
      .beginRegistration iri bytes id

end PasskeyRequest

/-! ## Responses -/

namespace PasskeyRequest

end PasskeyRequest

/-! ## Runs -/

/-- A request arrives, or the clock is set. -/
inductive EndpointInput where
  | request (req : PasskeyRequest)
  | tick (now : ℤ)

/-- A request that is refused, or one that is handled; or a clock. -/
inductive EndpointTask where
  | refused (response : HttpResponse)
  | handled (req : PasskeyRequest) (task : CeremonyTask)
  | clock (task : CeremonyTask)

namespace EndpointTask

variable (srv : PasskeyServer)

/-- The task of an input. -/
def enter : EndpointInput → EndpointTask
  | .tick now => .clock (.tick now)
  | .request req =>
    match req.call srv with
    | .error response => .refused response
    | .ok c => .handled req c.enter

/-- One section of a task. -/
def step (s : CeremonyState) : EndpointTask → Option (CeremonyState × EndpointTask)
  | .refused _ => none
  | .handled req task => (s.ceremonyStep srv.env task).map fun r => (r.1, .handled req r.2)
  | .clock task => (s.ceremonyStep srv.env task).map fun r => (r.1, .clock r.2)

end EndpointTask

/-- Concurrent requests. -/
def endpointsNext (srv : PasskeyServer) : Pool CeremonyState EndpointTask →
    Pool.Act EndpointInput → Option (Pool CeremonyState EndpointTask) :=
  Pool.next (EndpointTask.enter srv) (EndpointTask.step srv)

/-- The requests of a schedule. -/
def requestsOf (schedule : List (Pool.Act EndpointInput)) : List PasskeyRequest :=
  schedule.filterMap fun
    | .call (.request req) => some req
    | _ => none

end Picloud
