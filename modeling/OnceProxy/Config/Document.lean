/-
The whole of a configuration as a tree, with every field, also those that
have their default.
-/
import OnceProxy.Config.Tree

namespace OnceProxy

namespace Config

namespace Tree

/-- A number of 64 bits. -/
def ofUInt64 (n : UInt64) : Tree := .integer n.toNat

/-- A text, or nothing. -/
def ofOption (o : Option String) : Tree := o.elim .absent .text

/-- The name of a log format. -/
def ofLogFormat : LogFormat → Tree
  | .pretty => .text "pretty"
  | .json => .text "json"

end Tree

end Config

open Config Tree in
/-- The tree of a configuration. -/
def ProxyConfig.document (c : ProxyConfig) : Tree := .branch [
  ("listener", .branch [
    ("bind_address", .text c.listener.bindAddress),
    ("max_body_bytes", ofUInt64 c.listener.maxBodyBytes)]),
  ("origin", .branch [
    ("base_url", .text c.origin.baseUrl),
    ("timeout_ms", ofUInt64 c.origin.timeoutMs),
    ("connect_timeout_ms", ofUInt64 c.origin.connectTimeoutMs),
    ("max_response_bytes", ofUInt64 c.origin.maxResponseBytes)]),
  ("idempotency", .branch [
    ("key_header", .text c.idempotency.keyHeader),
    ("entry_ttl_secs", ofUInt64 c.idempotency.entryTtlSecs),
    ("definitive_statuses", .list (c.idempotency.definitiveStatuses.map fun s => .integer s.toNat)),
    ("require_key_for_safe_methods", .boolean c.idempotency.requireKeyForSafeMethods),
    ("refresh_on_replay", .boolean c.idempotency.refreshOnReplay),
    ("sweep_interval_secs", ofUInt64 c.idempotency.sweepIntervalSecs),
    ("snapshot_path", ofOption c.idempotency.snapshotPath)]),
  ("signing", .branch [
    ("private_key", ofOption c.signing.privateKey),
    ("signature_max_age_secs", ofUInt64 c.signing.signatureMaxAgeSecs)]),
  ("auth", .branch [
    ("enabled", .boolean c.auth.enabled),
    ("trusted_agents", .list (c.auth.trustedAgents.map .text))]),
  ("timeouts", .branch [("request_secs", ofUInt64 c.timeouts.requestSecs)]),
  ("observability", .branch [
    ("log_level", .text c.observability.logLevel),
    ("log_format", ofLogFormat c.observability.logFormat),
    ("metrics_enabled", .boolean c.observability.metricsEnabled),
    ("metrics_address", .text c.observability.metricsAddress)])]

end OnceProxy
