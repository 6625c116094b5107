/-
Whose signature a call carries.

What a request brings under the three names of a signature is dropped with
the fields that the proxy writes itself, and so is what its `connection`
field lists; the envelope's fields are set after that, each as the only one
of its name. So they are a function of what is signed, of the policy's signer
and of the second, and nothing else of the caller's fields reaches them.
-/
import OnceProxy.Proofs.Http.Hygiene
import OnceProxy.Proofs.Proxy.Causes
import OnceProxy.Proofs.Signing.Transport

namespace OnceProxy

open Http Origin Signing Store Text

-- ============================================================== envelopes

namespace Envelope

variable {e : Envelope} {h h' : Headers} {n : FieldName}

/-- Each of the three fields is there once, and spells its part of the
envelope. -/
structure CarriedBy (e : Envelope) (h : Headers) : Prop where
  signer : (h.values .signer).map FieldValue.text? = [some e.signer.render]
  timestamp : (h.values .timestamp).map FieldValue.text?
    = [some (Decimal.render e.timestamp.toNat)]
  signature : (h.values .signature).map FieldValue.text?
    = [some (Hex.prefixed e.signature.toOctets)]

theorem carriedBy_applyTo (e : Envelope) (h : Headers) :
    e.CarriedBy (e.applyTo h) := by
  have hsigner : FieldName.signer ≠ .signature ∧ FieldName.signer ≠ .timestamp := by
    decide
  have htimestamp : FieldName.timestamp ≠ .signature := by decide
  constructor
  · rw [values_applyTo, if_neg hsigner.1, if_neg hsigner.2, if_pos rfl,
      List.map_singleton, FieldValue.text?_ofText (isVisibleText_address _)]
  · rw [values_applyTo, if_neg htimestamp, if_pos rfl, List.map_singleton,
      FieldValue.text?_ofText (isVisibleText_decimal _)]
  · rw [values_applyTo, if_pos rfl, List.map_singleton,
      FieldValue.text?_ofText (isVisibleText_prefixed _)]

/-- What the fields of a signature hold does not depend on what was there. -/
theorem values_applyTo_of_mem (hn : n ∈ FieldName.signatureFields) :
    (e.applyTo h).values n = (e.applyTo h').values n := by
  have hcases : n = .signer ∨ n = .timestamp ∨ n = .signature := by
    simpa [FieldName.signatureFields] using hn
  rw [values_applyTo, values_applyTo]
  rcases hcases with rfl | rfl | rfl <;> rfl

end Envelope

namespace Proxy

variable {q : Incoming} {p : Policy} {now : UInt64} {o : Outbound} {n : FieldName}

-- ================================================================== calls

/-- The envelope of a call is made for its method, its path and its body, and
for the key of the request. -/
theorem Incoming.carriedBy_call (h : q.call? p now = some o) :
    (p.signer.signAt (outboundPayload o.method o.path q.key o.body)
      (now / 1000)).CarriedBy o.headers := by
  rw [Incoming.call?_eq h]
  exact Envelope.carriedBy_applyTo _ _

/-- Requests that differ in their fields only are signed alike within one
second. -/
theorem Incoming.signature_of_call {h' : Headers} {now' : UInt64} {o' : Outbound}
    (h : q.call? p now = some o)
    (hother : { q with headers := h' }.call? p now' = some o')
    (hsecond : now' / 1000 = now / 1000) (hn : n ∈ FieldName.signatureFields) :
    o'.headers.values n = o.headers.values n := by
  rw [Incoming.call?_eq h, Incoming.call?_eq hother, hsecond]
  exact Envelope.values_applyTo_of_mem hn

/-- Apart from the signature a call has the fields of the request that may
cross. -/
theorem Incoming.values_call (h : q.call? p now = some o)
    (hn : n ∉ FieldName.signatureFields) :
    o.headers.values n = q.headers.forwardable.values n := by
  rw [Incoming.call?_eq h]
  exact Envelope.values_applyTo_of_not_mem hn

end Proxy

theorem Http.Headers.values_forwardable_eq_nil {h : Headers} {n : FieldName}
    (hn : n ∈ FieldName.hopByHop ∨ h.Listed n ∨ n = .host ∨ n = .contentLength) :
    h.forwardable.values n = [] := by
  rw [Headers.values_forwardable, if_pos]
  rw [Bool.or_eq_true, Headers.isConnectionScoped_iff, List.contains_iff_mem]
  rcases hn with hhop | hlisted | rfl | rfl
  · exact .inl (.inl hhop)
  · exact .inl (.inr hlisted)
  · exact .inr (by decide)
  · exact .inr (by decide)

-- ============================================================ the theorem

namespace Proxy.System

/-- Nobody but the proxy writes the signature of a call. Every call of every
run is caused by a request. Whatever fields that request came with, the
call's three signature fields are there once each and carry the envelope that
the policy's signer makes at this second for the call's own method, path, key
and body. Another request that differs from it in its fields only, wherever
and whenever within the second it is called for under the same policy, gets
the same three fields. And nothing that belongs to the caller's connection
crosses, nor do its `host` and its `content-length`. -/
theorem signature_of_proxy {σ : Type} (B : Backend σ) (wall : Int) (store : σ)
    (policies : List Policy) :
    (∀ events u, Numbered events → (start wall store policies).run B events = some u →
      ∀ o ∈ u.calls, ∃ q p now, Causes B (start wall store policies) q p now o)
    ∧ ∀ q p now o, Causes B (start wall store policies) q p now o →
      (p.signer.signAt (outboundPayload o.method o.path q.key o.body)
        (now / 1000)).CarriedBy o.headers
      ∧ (∀ (τ : Type) (B' : Backend τ) wall' store' policies' h' now' o',
        Causes B' (start wall' store' policies') { q with headers := h' } p now' o' →
        now' / 1000 = now / 1000 →
        ∀ n ∈ FieldName.signatureFields, o'.headers.values n = o.headers.values n)
      ∧ ∀ n, n ∉ FieldName.signatureFields →
        n ∈ FieldName.hopByHop ∨ q.headers.Listed n ∨ n = .host ∨ n = .contentLength →
        o.headers.values n = [] := by
  constructor
  · intro events u hn hr
    exact exists_causes hn hr
  · intro q p now o h
    refine ⟨Incoming.carriedBy_call h.call, ?_, ?_⟩
    · intro τ B' wall' store' policies' h' now' o' hother hsecond n hn
      exact Incoming.signature_of_call h.call hother.call hsecond hn
    · intro n hn hdropped
      rw [Incoming.values_call h.call hn]
      exact Headers.values_forwardable_eq_nil hdropped

/-- An order whose caller has signed it, and wants the proxy's own signature
taken off again. -/
def forged : Incoming where
  method := Sample.order.method
  path := Sample.order.path
  headers := ⟨[(.signer, .ofText "0x00"), (.signature, .ofText "0x01"),
    (.signature, .ofText "0x02"), (.timestamp, .ofText "9"),
    (.connection, .ofText "close, X-Proxy-Signature ,x-proxy-signer"),
    (.proxyAuthorization, .ofText "secret")]⟩
  key := Sample.order.key
  body := Sample.order.body

/-- It is called for under the proxy's signature, which is the one that the
order gets without all this, and its credentials stay behind. -/
theorem signature_of_proxy_forged : ∃ o o',
    Causes MemoryStore.backend (start 0 .empty [Sample.policy]) forged Sample.policy 0 o
    ∧ Causes MemoryStore.backend (start 7 .empty [Sample.policy]) Sample.order
      Sample.policy 7 o'
    ∧ (Sample.policy.signer.signAt (outboundPayload o.method o.path forged.key o.body)
      0).CarriedBy o.headers
    ∧ (∀ n ∈ FieldName.signatureFields, o'.headers.values n = o.headers.values n)
    ∧ o.headers.values .proxyAuthorization = [] := by
  have hkey : Sample.order.HasKey Sample.orderKey := ⟨_, rfl, by decide +kernel⟩
  have hkey' : forged.HasKey Sample.orderKey := hkey
  have hforged := causes_first 0 Sample.policy hkey'
  have horder := causes_first 7 Sample.policy hkey
  obtain ⟨-, hcalls⟩ := signature_of_proxy MemoryStore.backend 0 .empty [Sample.policy]
  obtain ⟨hcarried, halike, hdropped⟩ := hcalls _ _ _ _ hforged
  exact ⟨_, _, hforged, horder, hcarried,
    halike _ _ _ _ _ Sample.order.headers _ _ horder (by decide),
    hdropped _ (by decide) (.inl (by decide))⟩

end Proxy.System

end OnceProxy
