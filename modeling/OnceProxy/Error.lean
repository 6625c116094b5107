/-
What a request can be answered with instead of a result.

Each cause belongs to one of six classes. The class gives the code, the
status and whether the caller may try again with the same key; the cause
gives the words. An error response is a small JSON object, and carries
`retry-after` where trying again makes sense.
-/
import OnceProxy.Http.Hygiene
import OnceProxy.Origin.Exchange
import OnceProxy.Signing.Error
import OnceProxy.Store.Error
import OnceProxy.Text.Json

namespace OnceProxy

open Http Origin Signing Store

-- ============================================================== causes

/-- What can be wrong with a request. -/
inductive RequestFault where
  | key (fault : KeyFault)
  | bodyTooLong
  | other (detail : String)
  deriving DecidableEq, Repr

/-- The words for a fault of a request. -/
def RequestFault.message : RequestFault → String
  | .key fault => fault.message
  | .bodyTooLong => "unreadable request body: length limit exceeded"
  | .other detail => detail

/-- Who refused whom. -/
inductive AuthFault where
  | missingToken
  | badToken (e : SigningError)
  | refusedByOrigin (status : Status)
  | other (detail : String)
  deriving DecidableEq

/-- The words for a refusal. -/
def AuthFault.message : AuthFault → String
  | .missingToken => "missing proxy token"
  | .badToken e => e.message
  | .refusedByOrigin status => "origin rejected the proxy with " ++ status.render
  | .other detail => detail

/-- Why there is no usable answer of the origin. -/
inductive OriginFault where
  | origin (e : OriginError)
  | notFinal (status : Status)
  | leadersAborted (times : Nat)
  | other (detail : String)
  deriving DecidableEq

/-- The words for a missing answer. -/
def OriginFault.message : OriginFault → String
  | .origin e => e.message
  | .notFinal status => "origin answered non-final status " ++ status.render
  | .leadersAborted times => "flight leader aborted " ++ toString times ++ " times"
  | .other detail => detail

/-- Why the store gave no answer. -/
inductive StoreFault where
  | store (e : StoreError)
  | other (detail : String)
  deriving DecidableEq, Repr

/-- The words for a store failure. -/
def StoreFault.message : StoreFault → String
  | .store e => e.message
  | .other detail => detail

/-- What a request is answered with instead of a result. -/
inductive ProxyError where
  | invalidRequest (fault : RequestFault)
  | conflict
  | unauthorized (fault : AuthFault)
  | originTimeout (ms : UInt64)
  | originUnavailable (fault : OriginFault)
  | storeUnavailable (fault : StoreFault)
  deriving DecidableEq

namespace ProxyError

-- ============================================================== classes

/-- The words for an error. -/
def message : ProxyError → String
  | .invalidRequest fault => "invalid request: " ++ fault.message
  | .conflict => "idempotency key was already used with a different request payload"
  | .unauthorized fault => "unauthorized: " ++ fault.message
  | .originTimeout ms => "origin did not respond within " ++ toString ms.toNat ++ " ms"
  | .originUnavailable fault => "origin unavailable: " ++ fault.message
  | .storeUnavailable fault => "cache store unavailable: " ++ fault.message

/-- The stable code of the class. -/
def code : ProxyError → String
  | .invalidRequest _ => "invalid_request"
  | .conflict => "idempotency_conflict"
  | .unauthorized _ => "unauthorized"
  | .originTimeout _ => "upstream_timeout"
  | .originUnavailable _ => "upstream_unavailable"
  | .storeUnavailable _ => "store_unavailable"

/-- Whether the caller may try again with the same key. -/
def isRetryable : ProxyError → Bool
  | .originTimeout _ | .originUnavailable _ | .storeUnavailable _ => true
  | .invalidRequest _ | .conflict | .unauthorized _ => false

/-- The status of the error response. -/
def status : ProxyError → Status
  | .invalidRequest _ => .badRequest
  | .conflict => ⟨409, by decide, by decide⟩
  | .unauthorized _ => ⟨401, by decide, by decide⟩
  | .originTimeout _ => ⟨504, by decide, by decide⟩
  | .originUnavailable _ => .badGateway
  | .storeUnavailable _ => ⟨503, by decide, by decide⟩

-- ============================================================ responses

/-- The body of the error response. -/
def body (e : ProxyError) : String :=
  Text.Json.object [("error", Text.Json.quote e.code), ("message", Text.Json.quote e.message),
    ("retryable", Text.Json.bool e.isRetryable)]

/-- The error response. -/
def response (e : ProxyError) : Response where
  status := e.status
  headers :=
    let typed := Headers.empty.append .contentType (.ofText "application/json")
    if e.isRetryable then typed.append .retryAfter (.ofText "1") else typed
  body := Octets.ofText e.body

end ProxyError

end OnceProxy
