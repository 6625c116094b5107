/-
What a request sends to the origin.

A request gives rise to one call, if to any: the two ways to it, with a key
and without, agree on what is signed and what is sent (`call?_eq`).
-/
import OnceProxy.Proofs.Http.Transit
import OnceProxy.Proofs.Proxy.Origins

namespace OnceProxy

theorem IdempotencyKey.text_of_parse {raw : String} {key : IdempotencyKey}
    (h : IdempotencyKey.parse raw = .ok key) : key.text = raw := by
  unfold IdempotencyKey.parse at h
  split at h
  · cases h
  · split at h
    · cases h
    · split at h
      · cases h
        rfl
      · cases h

namespace Proxy

open Http Origin Signing Store

-- ============================================================== one call

/-- The call that a request gives rise to. -/
def Incoming.call? (r : Incoming) (policy : Policy) (now : UInt64) :
    Option Outbound :=
  match IdempotencyKey.ofRequest r.method r.key policy.requireKey with
  | .ok (some key) => some ((r.prepare key).outbound policy now)
  | .ok none => some (r.outbound policy now)
  | .error _ => none

/-- What is signed for the call of a request. -/
def Incoming.payload (r : Incoming) : Octets :=
  outboundPayload r.method (RequestPath.normalize r.path) r.key r.body

/-- With a key or without: the payload is signed at the second of the call,
and what may cross of the request's fields goes with it. -/
theorem Incoming.call?_eq {r : Incoming} {policy : Policy} {now : UInt64}
    {o : Outbound} (h : r.call? policy now = some o) :
    o = ⟨r.method, RequestPath.normalize r.path,
      (policy.signer.signAt r.payload (now / 1000)).applyTo
        r.headers.forwardable, r.body⟩ := by
  unfold call? at h
  split at h
  · next key hkey =>
    obtain ⟨raw, hraw, hparse⟩ := Incoming.hasKey_of_ofRequest hkey
    obtain rfl := Option.some.inj h
    unfold payload
    rw [hraw, ← IdempotencyKey.text_of_parse hparse]
    rfl
  · next hkey =>
    obtain rfl := Option.some.inj h
    unfold payload
    rw [Incoming.key_eq_none_of_ofRequest hkey]
    rfl
  · cases h

/-- A request with a key gives rise to a call only if the key is visible. -/
theorem Incoming.isVisibleText_of_call? {r : Incoming} {policy : Policy}
    {now : UInt64} {o : Outbound} (h : r.call? policy now = some o)
    {text : String} (htext : r.key = some text) : IsVisibleText text := by
  unfold call? at h
  split at h
  · next key hkey =>
    obtain ⟨raw, hraw, hparse⟩ := Incoming.hasKey_of_ofRequest hkey
    rw [htext] at hraw
    obtain rfl := Option.some.inj hraw
    rw [← IdempotencyKey.text_of_parse hparse]
    exact key.isVisibleText
  · next hkey =>
    rw [Incoming.key_eq_none_of_ofRequest hkey] at htext
    cases htext
  · cases h

end Proxy

end OnceProxy
