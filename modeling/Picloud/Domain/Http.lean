import Picloud.Domain.Event

/-!
# Responses of handlers

A handler answers with a status and a JSON body.
-/

namespace Picloud

/-- A response. -/
structure HttpResponse where
  status : ℕ
  body : Json
deriving DecidableEq

/-- A response with an error. -/
def HttpResponse.error (status : ℕ) (message : String) : HttpResponse :=
  ⟨status, .object [("error", .string message)]⟩

end Picloud
