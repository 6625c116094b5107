/-
Request ids: one name for a request on its whole way.

A caller's id is kept if it is plain ASCII, not empty and not too long;
otherwise a generated one takes its place. The id is the only one of its
field in the request that goes on and in the response that comes back.
-/
import OnceProxy.Http.Hygiene
import OnceProxy.Http.Response

namespace OnceProxy.Server

open Http

/-- The longest id that is kept, in octets. -/
def maxRequestIdLength : Nat := 128

/-- Whether a caller's id is kept. -/
def keepsRequestId (v : FieldValue) : Bool :=
  !v.octets.isEmpty && decide (v.octets.length ≤ maxRequestIdLength) && v.text?.isSome

/-- The id of a request. -/
def requestId (h : Headers) (generated : FieldValue) : FieldValue :=
  match h.first? .requestId with
  | some v => if keepsRequestId v then v else generated
  | none => generated

/-- The fields with the id as the only one of its name. -/
def tagged (h : Headers) (id : FieldValue) : Headers := h.insert .requestId id

/-- A response with the id. -/
def taggedResponse (r : Response) (id : FieldValue) : Response :=
  { r with headers := tagged r.headers id }

end OnceProxy.Server
