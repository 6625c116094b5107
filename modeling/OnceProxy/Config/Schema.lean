/-
The configuration of a proxy, section by section, with its defaults.
-/
namespace OnceProxy.Config

-- ============================================================ sections

/-- Where callers connect, and how much they may send. -/
structure Listener where
  bindAddress : String := "0.0.0.0:8080"
  maxBodyBytes : UInt64 := 1048576
  deriving DecidableEq, Repr

/-- Where requests go on to, and the bounds on the answer. -/
structure OriginSettings where
  baseUrl : String := "http://127.0.0.1:3000"
  timeoutMs : UInt64 := 10000
  connectTimeoutMs : UInt64 := 2000
  maxResponseBytes : UInt64 := 10485760
  deriving DecidableEq, Repr

/-- The statuses whose responses are final unless configured otherwise. -/
def defaultDefinitiveStatuses : List UInt16 :=
  [200, 201, 202, 203, 204, 205, 207, 208, 226, 300, 301, 302, 303, 305, 306, 307, 308,
   400, 404, 405, 409, 410, 422]

/-- What is kept, for how long, and under which header's key. -/
structure Idempotency where
  keyHeader : String := "idempotency-key"
  entryTtlSecs : UInt64 := 86400
  definitiveStatuses : List UInt16 := defaultDefinitiveStatuses
  requireKeyForSafeMethods : Bool := false
  refreshOnReplay : Bool := false
  sweepIntervalSecs : UInt64 := 60
  snapshotPath : Option String := none
  deriving DecidableEq, Repr

/-- The signing key and the age up to which its signatures count. -/
structure SigningKey where
  privateKey : Option String := none
  signatureMaxAgeSecs : UInt64 := 60
  deriving DecidableEq, Repr

/-- Whether callers need a token, and whose tokens count. -/
structure Auth where
  enabled : Bool := false
  trustedAgents : List String := []
  deriving DecidableEq, Repr

/-- The bound on a whole request. -/
structure Timeouts where
  requestSecs : UInt64 := 30
  deriving DecidableEq, Repr

/-- The form of log lines. -/
inductive LogFormat where
  | pretty
  | json
  deriving DecidableEq, Repr

/-- What the proxy tells about itself. -/
structure Observability where
  logLevel : String := "info"
  logFormat : LogFormat := .pretty
  metricsEnabled : Bool := true
  metricsAddress : String := "0.0.0.0:9090"
  deriving DecidableEq, Repr

end Config

open Config in
/-- The configuration of a proxy. -/
structure ProxyConfig where
  listener : Listener := {}
  origin : OriginSettings := {}
  idempotency : Idempotency := {}
  signing : SigningKey := {}
  auth : Auth := {}
  timeouts : Timeouts := {}
  observability : Observability := {}
  deriving DecidableEq, Repr

end OnceProxy
