/-
What a configuration has to satisfy beyond its types.

Every problem is found, not only the first, and listed in the order of the
sections. A configuration without problems is the only kind that a proxy
is started from or reloaded with.
-/
import OnceProxy.Config.Schema
import OnceProxy.Http.Field
import OnceProxy.Net.SocketAddress
import OnceProxy.Signing.Signer
import OnceProxy.Url.Parse

namespace OnceProxy.Config

open Crypto Http Net

/-- What is wrong with a field. -/
inductive Problem where
  | notSocketAddress (text : String)
  | notPositive
  | otherScheme (scheme : String)
  | hasQuery
  | notUrl (e : Url.UrlError)
  | notHeaderName (text : String)
  | noStatus
  | notStatus (status : UInt16)
  | transientStatus (status : UInt16)
  | notPrivateKey
  | noAgents
  | notAddress (text : String)
  deriving DecidableEq, Repr

/-- The words for a problem. -/
def Problem.message : Problem → String
  | .notSocketAddress text => "'" ++ text ++ "' is not a socket address"
  | .notPositive => "must be > 0"
  | .otherScheme scheme => "unsupported scheme '" ++ scheme ++ "', only http is supported"
  | .hasQuery => "must not carry a query string"
  | .notUrl e => e.message
  | .notHeaderName text => "'" ++ text ++ "' is not a valid header name"
  | .noStatus => "must list at least one status"
  | .notStatus status => toString status.toNat ++ " is not an HTTP status"
  | .transientStatus status => toString status.toNat ++ " is transient and must not be cached"
  | .notPrivateKey => "not a valid secp256k1 key"
  | .noAgents => "must not be empty when auth is enabled"
  | .notAddress text => "'" ++ text ++ "' is not an address"

/-- A problem and the dotted path of its field. -/
structure FieldProblem where
  field : String
  problem : Problem
  deriving DecidableEq, Repr

/-- The field and the words for its problem. -/
def FieldProblem.message (p : FieldProblem) : String := p.field ++ ": " ++ p.problem.message

-- =============================================================== checks

/-- One problem if the test fails. -/
def check (field : String) (passes : Bool) (problem : Problem) : List FieldProblem :=
  if passes then [] else [⟨field, problem⟩]

/-- A socket address. -/
def checkAddress (field text : String) : List FieldProblem :=
  check field (SocketAddress.parse? text).isSome (.notSocketAddress text)

/-- More than nothing. -/
def checkPositive (field : String) (n : UInt64) : List FieldProblem :=
  check field (n ≠ 0) .notPositive

/-- A plain HTTP URL without query. -/
def checkBaseUrl (field text : String) : List FieldProblem :=
  match Url.parse text with
  | .error e => [⟨field, .notUrl e⟩]
  | .ok url =>
    if url.scheme ≠ "http" then [⟨field, .otherScheme url.scheme⟩]
    else check field url.query.isNone .hasQuery

/-- Whether a response of this status may change by itself, so that keeping
it would be wrong. -/
def isTransient (status : UInt16) : Bool :=
  500 ≤ status || status == 401 || status == 403 || status == 429

/-- A status whose response may be kept. -/
def checkStatus (field : String) (status : UInt16) : List FieldProblem :=
  if status < 100 ∨ 599 < status then [⟨field, .notStatus status⟩]
  else check field (!isTransient status) (.transientStatus status)

end Config

open Config Crypto Http in
/-- The problems of a configuration, in the order of its sections. -/
def ProxyConfig.problems (c : ProxyConfig) : List FieldProblem :=
  checkAddress "listener.bind_address" c.listener.bindAddress ++
  checkPositive "listener.max_body_bytes" c.listener.maxBodyBytes ++
  checkBaseUrl "origin.base_url" c.origin.baseUrl ++
  checkPositive "origin.timeout_ms" c.origin.timeoutMs ++
  checkPositive "origin.connect_timeout_ms" c.origin.connectTimeoutMs ++
  checkPositive "origin.max_response_bytes" c.origin.maxResponseBytes ++
  check "idempotency.key_header" (FieldName.parse? c.idempotency.keyHeader).isSome
    (.notHeaderName c.idempotency.keyHeader) ++
  checkPositive "idempotency.entry_ttl_secs" c.idempotency.entryTtlSecs ++
  checkPositive "idempotency.sweep_interval_secs" c.idempotency.sweepIntervalSecs ++
  check "idempotency.definitive_statuses" (!c.idempotency.definitiveStatuses.isEmpty) .noStatus ++
  c.idempotency.definitiveStatuses.flatMap (checkStatus "idempotency.definitive_statuses") ++
  check "signing.private_key"
    (c.signing.privateKey.all fun text => (Signer.ofPrivateKey text).toOption.isSome)
    .notPrivateKey ++
  checkPositive "signing.signature_max_age_secs" c.signing.signatureMaxAgeSecs ++
  check "auth.trusted_agents" (!(c.auth.enabled && c.auth.trustedAgents.isEmpty)) .noAgents ++
  c.auth.trustedAgents.flatMap (fun text =>
    check "auth.trusted_agents" (Address.parse? text).isSome (.notAddress text)) ++
  checkPositive "timeouts.request_secs" c.timeouts.requestSecs ++
  (if c.observability.metricsEnabled then
    checkAddress "observability.metrics_address" c.observability.metricsAddress else [])

end OnceProxy
