/-
Requests on their way through the proxy, and the replies to them.

A keyed request is prepared once: its path is brought into normal form and
it is fingerprinted. What goes to the origin is signed for the second of
the call and carries no field that the caller could have forged. A reply is
made from an entry, or from the origin's response to a request without key.
-/
import OnceProxy.Error
import OnceProxy.Policy
import OnceProxy.Signing.Envelope

namespace OnceProxy.Proxy

open Http Origin Signing

/-- A request as it came in, with the value of its key field. -/
structure Incoming where
  method : Method
  path : String
  headers : Headers
  key : Option String
  body : Octets

/-- A keyed request, fingerprinted. -/
structure Prepared where
  method : Method
  path : String
  key : IdempotencyKey
  headers : Headers
  body : Octets
  fingerprint : Fingerprint

/-- Prepares a request under its key. -/
def Incoming.prepare (r : Incoming) (key : IdempotencyKey) : Prepared :=
  let path := RequestPath.normalize r.path
  ⟨r.method, path, key, r.headers, r.body, .ofRequest r.method path key r.body⟩

-- ============================================================= outbound

/-- The signed request that goes to the origin. -/
def outbound (policy : Policy) (now : UInt64) (method : Method) (path : String)
    (key : Option String) (headers : Headers) (body : Octets) : Outbound :=
  let envelope := policy.signer.signAt (outboundPayload method path key body) (now / 1000)
  ⟨method, path, envelope.applyTo headers.forwardable, body⟩

/-- What goes to the origin for a keyed request. -/
def Prepared.outbound (r : Prepared) (policy : Policy) (now : UInt64) : Outbound :=
  Proxy.outbound policy now r.method r.path (some r.key.text) r.headers r.body

/-- What goes to the origin for a request without key. -/
def Incoming.outbound (r : Incoming) (policy : Policy) (now : UInt64) : Outbound :=
  Proxy.outbound policy now r.method (RequestPath.normalize r.path) none r.headers r.body

-- ============================================================== replies

/-- The reply to a request, and whether it repeats the result of an earlier
operation. -/
structure Replay where
  status : Status
  headers : Headers
  body : Octets
  replayed : Bool
  deriving DecidableEq

namespace Replay

/-- The reply that an entry gives. -/
def ofEntry (e : Entry) (replayed : Bool) : Replay := ⟨e.statusCode, e.headerMap, e.body, replayed⟩

/-- The origin's response, handed through. -/
def passThrough (r : Response) : Replay := ⟨r.status, r.headers.cacheable, r.body, false⟩

/-- The response for a reply; a repeated one is marked. -/
def response (r : Replay) : Response :=
  ⟨r.status, if r.replayed then r.headers.insert .replayMarker (.ofText "true") else r.headers,
    r.body⟩

end Replay

/-- The result of a flight: an entry, and whether the flight stored it itself. -/
structure Resolution where
  entry : Entry
  fresh : Bool
  deriving DecidableEq

/-- How a completed flight turned out. -/
abbrev Outcome := Except ProxyError Resolution

/-- The reply that a completed flight gives to a participant: its entry, if
the entry is the result of the participant's own operation. -/
def settle (outcome : Outcome) (fp : Fingerprint) : Except ProxyError Replay := do
  let resolution ← outcome
  if resolution.entry.answers fp then return .ofEntry resolution.entry (!resolution.fresh)
  else throw .conflict

/-- Whether a response may be kept, or the error that it stands for. -/
def classify (status : Status) (policy : Policy) : Except ProxyError Unit :=
  if policy.isDefinitive status then .ok ()
  else if status.code = 401 ∨ status.code = 403 then .error (.unauthorized (.refusedByOrigin status))
  else .error (.originUnavailable (.notFinal status))

/-- The entry for a response. -/
def Prepared.entryFor (r : Prepared) (policy : Policy) (response : Response) (now : UInt64) : Entry :=
  .ofResponse r.fingerprint response.status response.headers.cacheable response.body now
    (addSaturating now (millis policy.entryTtl))

end OnceProxy.Proxy
