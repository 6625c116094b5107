/-
Responses: a status, header fields and a body.
-/
import OnceProxy.Http.Field
import OnceProxy.Http.Status

namespace OnceProxy.Http

/-- A response. -/
structure Response where
  status : Status
  headers : Headers
  body : Octets
  deriving DecidableEq

namespace Response

/-- A response without fields and body. -/
def bare (status : Status) : Response := ⟨status, .empty, []⟩

end Response

end OnceProxy.Http
