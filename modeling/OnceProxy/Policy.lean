/-
Policies: what governs the handling of one request.

A policy is taken as a whole when a request arrives and holds for everything
done on behalf of that request, also if another is put in force meanwhile.
Durations are in milliseconds.
-/
import OnceProxy.Config.Schema
import OnceProxy.Http.Status
import OnceProxy.Signing.Signer

namespace OnceProxy

open Http

/-- What governs the handling of a request. -/
structure Policy where
  signer : Signer
  entryTtl : Nat
  originTimeout : Nat
  definitive : List UInt16
  requireKey : Bool
  refreshOnReplay : Bool

namespace Policy

/-- The policy that a signer alone gives. -/
def default (signer : Signer) : Policy where
  signer := signer
  entryTtl := 86400 * 1000
  originTimeout := 10 * 1000
  definitive := Config.defaultDefinitiveStatuses
  requireKey := false
  refreshOnReplay := false

/-- The policy of a configuration. -/
def ofConfig (c : ProxyConfig) (signer : Signer) : Policy where
  signer := signer
  entryTtl := c.idempotency.entryTtlSecs.toNat * 1000
  originTimeout := c.origin.timeoutMs.toNat
  definitive := c.idempotency.definitiveStatuses
  requireKey := c.idempotency.requireKeyForSafeMethods
  refreshOnReplay := c.idempotency.refreshOnReplay

/-- Whether a response of this status is final and may be kept. -/
def isDefinitive (p : Policy) (status : Status) : Bool :=
  p.definitive.contains (UInt16.ofNat status.code)

end Policy

/-- A duration in milliseconds as a 64-bit number, which wraps around. -/
def millis (duration : Nat) : UInt64 := UInt64.ofNat duration

end OnceProxy
