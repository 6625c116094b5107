/-
Header hygiene: which fields cross the proxy.

Fields that belong to one connection never cross: the listed hop-by-hop
names, and every name that a `connection` value lists. Requests lose in
addition the fields that the client towards the origin writes itself and
the three signature fields, which only the proxy may set; responses lose
their length. Each of the three functions keeps the fields that pass a test
fixed before the first is dropped, so it is a filter.
-/
import OnceProxy.Http.Field
import OnceProxy.Text.Pieces

namespace OnceProxy.Http

-- ======================================================= names at hand

namespace FieldName

/-- Connection options, among them further names to drop. -/
def connection : FieldName := ⟨"connection", by decide⟩
/-- The target authority. -/
def host : FieldName := ⟨"host", by decide⟩
/-- The body's length. -/
def contentLength : FieldName := ⟨"content-length", by decide⟩
/-- The body's media type. -/
def contentType : FieldName := ⟨"content-type", by decide⟩
/-- Credentials for the proxy itself. -/
def proxyAuthorization : FieldName := ⟨"proxy-authorization", by decide⟩
/-- The caller's or the proxy's name for the request. -/
def requestId : FieldName := ⟨"x-request-id", by decide⟩
/-- When to try again. -/
def retryAfter : FieldName := ⟨"retry-after", by decide⟩
/-- Marks a response that repeats an earlier one. -/
def replayMarker : FieldName := ⟨"idempotency-replayed", by decide⟩
/-- The address that signed the request. -/
def signer : FieldName := ⟨"x-proxy-signer", by decide⟩
/-- The second at which the request was signed. -/
def timestamp : FieldName := ⟨"x-proxy-timestamp", by decide⟩
/-- The signature. -/
def signature : FieldName := ⟨"x-proxy-signature", by decide⟩

/-- The names that belong to one connection whatever `connection` says. -/
def hopByHop : List FieldName :=
  [connection, ⟨"keep-alive", by decide⟩, ⟨"proxy-authenticate", by decide⟩, proxyAuthorization,
   ⟨"te", by decide⟩, ⟨"trailer", by decide⟩, ⟨"transfer-encoding", by decide⟩,
   ⟨"upgrade", by decide⟩, ⟨"proxy-connection", by decide⟩]

/-- The three fields of a signature. -/
def signatureFields : List FieldName := [signer, timestamp, signature]

end FieldName

-- ============================================================= filters

/-- Space or tab. -/
def isBlank (c : Char) : Bool := c = ' ' || c = '\t'

namespace Headers

/-- The names that the `connection` values list. -/
def connectionListed (h : Headers) : List FieldName :=
  (h.values .connection).flatMap fun v =>
    match v.text? with
    | none => []
    | some s => (Text.pieces ',' s.toList).filterMap fun piece =>
        FieldName.ofChars? (Text.trimChars isBlank piece)

/-- Whether a name belongs to this connection. -/
def isConnectionScoped (h : Headers) (name : FieldName) : Bool :=
  FieldName.hopByHop.contains name || h.connectionListed.contains name

/-- Drops the fields that belong to this connection. -/
def stripHopByHop (h : Headers) : Headers := h.keep fun n => !h.isConnectionScoped n

/-- The names that the proxy writes itself towards the origin. -/
def reservedNames : List FieldName :=
  [.host, .contentLength] ++ FieldName.signatureFields

/-- The fields of a request that go on to the origin. -/
def forwardable (h : Headers) : Headers :=
  h.stripHopByHop.keep fun n => !reservedNames.contains n

/-- The fields of a response that are kept and given to the caller. -/
def cacheable (h : Headers) : Headers := h.stripHopByHop.remove .contentLength

end Headers

end OnceProxy.Http
