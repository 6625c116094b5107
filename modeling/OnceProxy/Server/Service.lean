/-
The server: what happens to a request on its way to the proxy and back.

A request gets its id, and its time begins. It has to pass the gate, lead to
a path, and be buffered; only then does the proxy see it. Whatever answers
it, the response carries its id. A reload changes the gate and the policy
together, or, where the new key is no key, neither.
-/
import OnceProxy.Auth
import OnceProxy.Http.Wire
import OnceProxy.Metrics
import OnceProxy.Server.Buffer
import OnceProxy.Server.RequestId

namespace OnceProxy.Server

open Http Proxy Signing

-- =============================================================== service

/-- What a server does with requests before and behind the proxy. -/
structure Service where
  keyField : FieldName
  maxBody : Nat
  /-- The milliseconds that a request may take. -/
  requestBound : Nat
  auth : AuthPolicy

/-- What becomes of a request in front of the proxy. -/
inductive Admission where
  /-- It is answered there. -/
  | answered (r : Response)
  /-- It cannot be buffered. -/
  | rejected (e : ProxyError)
  /-- The rest of its body never comes. -/
  | stalled
  /-- The proxy sees it. -/
  | admitted (r : Incoming)

/-- The response to a request that took too long. -/
def tooLong : Response := .bare ⟨408, by decide, by decide⟩

/-- The response to a request that leads nowhere. -/
def notFound : Response := .bare ⟨404, by decide, by decide⟩

/-- The response to what is no request. -/
def badRequest : Response := .bare .badRequest

namespace Service

/-- Whether a URI leads to the proxy. -/
def routes (u : Uri) : Bool := u.target.toList.head? = some '/' || u.scheme.isSome

/-- Decides on a request that carries its id already. -/
def admitTagged (s : Service) (now : UInt64) (r : Inbound) (isComplete : Bool) : Admission :=
  if s.requestBound = 0 then .answered tooLong
  else
    match s.auth.authorize r.headers (now / 1000) with
    | .error e => .answered e.response
    | .ok _ =>
      if !routes r.target then .answered notFound
      else
        match buffer r s.keyField s.maxBody with
        | .error e => .rejected e
        | .ok incoming => if isComplete then .admitted incoming else .stalled

/-- Gives a request its id and decides on it. -/
def admission (s : Service) (now : UInt64) (id : FieldValue) (r : Inbound) (isComplete : Bool) :
    Admission :=
  s.admitTagged now { r with headers := tagged r.headers id } isComplete

end Service

-- =============================================================== replies

/-- The response for what the proxy replied. -/
def replyResponse : Except ProxyError Replay → Response
  | .ok r => r.response
  | .error e => e.response

/-- Under which outcome and status a reply is counted. -/
def replyCounter (method : Method) : Except ProxyError Replay → Counter
  | .ok r => .requests method.text r.status.code (if r.replayed then "replayed" else "forwarded")
  | .error e => .requests method.text e.status.code e.code

end OnceProxy.Server
