/-
What passes between proxy and origin: an outbound request, and its reply.

A reply is a response or the reason why there is none.
-/
import OnceProxy.Http.Method
import OnceProxy.Http.Response

namespace OnceProxy.Origin

open Http

/-- A request as the origin gets it. -/
structure Outbound where
  method : Method
  path : String
  headers : Headers
  body : Octets
  deriving DecidableEq

/-- Why the origin gave no response. -/
inductive OriginError where
  | invalidUri (detail : String)
  | failed (detail : String)
  | badBody (detail : String)
  deriving DecidableEq, Repr

/-- The words for a missing response. -/
def OriginError.message : OriginError → String
  | .invalidUri detail => "invalid origin uri: " ++ detail
  | .failed detail => "origin request failed: " ++ detail
  | .badBody detail => "origin response body failed: " ++ detail

/-- What the origin answers. -/
abbrev Reply := Except OriginError Response

end OnceProxy.Origin
