/-
Buffering: from an inbound request to one that the proxy can handle.

The key is the first value of the key field. Where a request has two
faults, that of its key comes first.
-/
import OnceProxy.Http.Uri
import OnceProxy.Proxy.Request

namespace OnceProxy.Server

open Http Proxy

/-- A request as it is read from a connection. -/
structure Inbound where
  method : Method
  target : Uri
  headers : Headers
  body : Octets

/-- The value of the key field. -/
def rawKey (h : Headers) (keyField : FieldName) : Except ProxyError (Option String) :=
  match h.first? keyField with
  | none => .ok none
  | some v =>
    match v.text? with
    | some text => .ok (some text)
    | none => .error (.invalidRequest (.key .notVisible))

/-- Buffers a request whose body has at most `maxBody` octets. -/
def buffer (r : Inbound) (keyField : FieldName) (maxBody : Nat) : Except ProxyError Incoming := do
  let key ← rawKey r.headers keyField
  if maxBody < r.body.length then throw (.invalidRequest .bodyTooLong)
  return ⟨r.method, r.target.pathAndQuery, r.headers, key, r.body⟩

end OnceProxy.Server
