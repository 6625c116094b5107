/-
How a call to the origin goes on the wire, and what the proxy makes of it.

The body of a response is read up to a limit. A response that only informs
is none: whoever closes the connection behind it has not answered.
-/
import OnceProxy.Http.Wire
import OnceProxy.Origin.Target

namespace OnceProxy.Origin

open Http

/-- How a call went. -/
inductive Delivery where
  /-- Nothing listens there. -/
  | refused
  /-- The connection was closed without an answer. -/
  | unanswered
  /-- The connection was closed within the body. -/
  | cutShort (r : Response)
  | complete (r : Response)

/-- What a limited reader makes of a body. -/
def readBody (limit : Nat) (body : Octets) (isComplete : Bool) : Except OriginError Octets :=
  if limit < body.length then .error (.badBody "length limit exceeded")
  else if isComplete then .ok body
  else .error (.badBody "error reading a body from connection")

/-- What comes back from a call. -/
def Delivery.reply (m : Method) (limit : Nat) : Delivery → Reply
  | .refused => .error (.failed "client error (Connect)")
  | .unanswered => .error (.failed "client error (SendRequest)")
  | .cutShort r => read r false
  | .complete r => read r true
where
  /-- The response, with as much of its body as counts. -/
  read (r : Response) (isComplete : Bool) : Reply :=
    if r.status.isInformational then .error (.failed "client error (SendRequest)")
    else do
      let mayHaveBody := mayHaveBody m r.status
      let body ← readBody limit (if mayHaveBody then r.body else []) (isComplete || !mayHaveBody)
      return ⟨r.status, r.headers.onWire, body⟩

/-- A request as the origin gets it off the wire. -/
structure Received where
  method : Method
  target : String
  headers : Headers
  body : Octets
  deriving DecidableEq

/-- A network on which at most one origin listens. -/
structure Network where
  /-- The host and port where it listens. -/
  origin : Option String

namespace Network

/-- The request that the origin gets for a call; none if the call leads
somewhere else. -/
def receives? (net : Network) (base : Url) (o : Outbound) : Option Received :=
  match targetUri base o.path with
  | .error _ => none
  | .ok uri =>
    if uri.scheme = some "http" ∧ some (place uri) = net.origin then
      some ⟨o.method, uri.requestTarget, o.headers.onWire, o.body⟩
    else none

/-- The reply to a call, if the origin would treat it so. -/
def replyTo (net : Network) (base : Url) (limit : Nat) (o : Outbound) (treated : Delivery) : Reply :=
  match targetUri base o.path with
  | .error e => .error (.invalidUri e.message)
  | .ok _ =>
    ((net.receives? base o).elim Delivery.refused fun _ => treated).reply o.method limit

end Network

end OnceProxy.Origin
