/-
Request methods: case-sensitive tokens, of which four change state.
-/
import OnceProxy.Http.Field

namespace OnceProxy.Http

/-- A non-empty token. -/
def isMethod (s : String) : Bool := !s.toList.isEmpty && s.toList.all isTokenChar

/-- A request method. -/
structure Method where
  text : String
  valid : isMethod text = true
  deriving DecidableEq

namespace Method

/-- The method of this name, if it is a token. -/
def parse? (s : String) : Option Method :=
  if h : isMethod s = true then some ⟨s, h⟩ else none

/-- Whether requests of this method may change state at the origin. -/
def isMutating (m : Method) : Bool := ["POST", "PUT", "PATCH", "DELETE"].contains m.text

end Method

end OnceProxy.Http
