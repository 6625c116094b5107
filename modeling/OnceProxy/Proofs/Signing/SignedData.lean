/-
What is hashed for a signature can be read back.

A signer puts its name to two kinds of data, to requests at a second and to
tokens. What is hashed is a pair in both cases, and both pairs begin with a
number. Behind the number an octet string follows for a request and a text for
a token, and the first octet of the head behind tells the two apart
(`head_append_inj`), so neither kind of data is ever taken for the other.

Within one kind the fields are read back one behind the other
(`eq_of_read`). The last field needs no reader and no bound on its length: its
head has as many octets as its first octet announces, and what is behind the
head is the field. Nothing is assumed of the hash; where two different data
share a digest, two strings are named that collide.
-/
import OnceProxy.Proofs.Cbor.ReadBack
import OnceProxy.Proofs.Signing.Acceptance
import OnceProxy.Signing.Token

namespace OnceProxy

open Cbor Crypto Http Secp256k1 Signing

namespace Cbor

-- ================================================================= heads

/-- How many octets follow a first octet with these low bits in its head. -/
def argumentWidth (low : Nat) : Nat := if low < 24 then 0 else 2 ^ (low - 24)

/-- A head is a first octet and as many octets as it announces, whatever the
argument is. -/
theorem head_shape (kind n : Nat) :
    ∃ low arg, low < 32 ∧ head kind n = UInt8.ofNat (kind * 32 + low) :: arg
      ∧ arg.length = argumentWidth low := by
  unfold head
  dsimp only
  split
  · next h => exact ⟨n, [], by omega, rfl, by simp [argumentWidth, h]⟩
  · split
    · exact ⟨24, _, by omega, rfl, by simp [argumentWidth]⟩
    · split
      · exact ⟨25, _, by omega, rfl, by simp [argumentWidth]⟩
      · split
        · exact ⟨26, _, by omega, rfl, by simp [argumentWidth]⟩
        · exact ⟨27, _, by omega, rfl, by simp [argumentWidth]⟩

/-- Heads in front of one string are of one kind, and equal. -/
theorem head_append_inj {kind kind' n n' : Nat} {x y : Octets}
    (hk : kind < 8) (hk' : kind' < 8)
    (h : head kind n ++ x = head kind' n' ++ y) :
    kind = kind' ∧ head kind n = head kind' n' ∧ x = y := by
  obtain ⟨low, arg, hlow, hhead, harg⟩ := head_shape kind n
  obtain ⟨low', arg', hlow', hhead', harg'⟩ := head_shape kind' n'
  have hfirst : kind * 32 + low = kind' * 32 + low' := by
    rw [hhead, hhead', List.cons_append, List.cons_append] at h
    have hoctet := congrArg UInt8.toNat (List.cons.inj h).1
    rw [UInt8.toNat_ofNat', UInt8.toNat_ofNat'] at hoctet
    omega
  have hkind : kind = kind' := by omega
  have hbits : low = low' := by omega
  have hlength : (head kind n).length = (head kind' n').length := by
    rw [hhead, hhead', List.length_cons, List.length_cons, harg, harg', hbits]
  obtain ⟨heq, hrest⟩ := List.append_inj h hlength
  exact ⟨hkind, heq, hrest⟩

-- ================================================================ fields

/-- What a reader reads off the front of two forms is the same where the forms
stand in front of one string. -/
theorem eq_of_read {α : Type} {item : Reader α} {a b : α} {form form' : Octets}
    (ha : ∀ rest, item (form ++ rest) = some (a, rest))
    (hb : ∀ rest, item (form' ++ rest) = some (b, rest)) {x y : Octets}
    (h : form ++ x = form' ++ y) : a = b ∧ x = y := by
  have hread := ha x
  rw [h, hb y] at hread
  cases hread
  exact ⟨rfl, rfl⟩

/-- A number in front is told from what follows it. -/
theorem unsigned_append_inj {n m : UInt64} {x y : Octets}
    (h : (Value.unsigned n).encode ++ x = (Value.unsigned m).encode ++ y) :
    n = m ∧ x = y :=
  eq_of_read (readUInt64_encode n) (readUInt64_encode m) h

/-- A text in front is told from what follows it. -/
theorem text_append_inj {s t : String} (hs : (Octets.ofText s).length < 2 ^ 64)
    (ht : (Octets.ofText t).length < 2 ^ 64) {x y : Octets}
    (h : (Value.text s).encode ++ x = (Value.text t).encode ++ y) :
    s = t ∧ x = y :=
  eq_of_read (readText_encode hs) (readText_encode ht) h

/-- A text of any length is told by its form. -/
theorem text_encode_inj {s t : String}
    (h : (Value.text s).encode = (Value.text t).encode) : s = t := by
  rw [Value.encode, Value.encode] at h
  exact Octets.ofText_inj.mp (head_append_inj (by decide) (by decide) h).2.2

/-- An octet string of any length is told by its form. -/
theorem octets_encode_inj {a b : Octets}
    (h : (Value.octets a).encode = (Value.octets b).encode) : a = b := by
  rw [Value.encode, Value.encode] at h
  exact (head_append_inj (by decide) (by decide) h).2.2

/-- A text and an octet string never have one form. -/
theorem text_encode_ne_octets (s : String) (b : Octets) :
    (Value.text s).encode ≠ (Value.octets b).encode := by
  intro h
  rw [Value.encode, Value.encode] at h
  exact absurd (head_append_inj (by decide) (by decide) h).1 (by decide)

/-- The form of a pair: a head, and both forms behind it. -/
theorem encode_pair (v w : Value) :
    (Value.array [v, w]).encode = head 4 2 ++ (v.encode ++ w.encode) := by
  rw [Value.encode, Value.encodeItems_eq]
  simp

/-- A pair headed by a number tells the number and the form of what is
behind it. -/
theorem encode_numbered_inj {n m : UInt64} {v w : Value}
    (h : (Value.array [.unsigned n, v]).encode
      = (Value.array [.unsigned m, w]).encode) :
    n = m ∧ v.encode = w.encode := by
  rw [encode_pair, encode_pair] at h
  exact unsigned_append_inj (List.append_cancel_left h)

end Cbor

-- =============================================================== requests

namespace Signing

/-- The lengths of the texts that are signed for a request are numbers of 64
bits, as those of everything that is held in memory. -/
structure Fits (m : Method) (p : String) (k : Option String) : Prop where
  method : (Octets.ofText m.text).length < 2 ^ 64
  path : (Octets.ofText p).length < 2 ^ 64
  key : (Octets.ofText (k.getD "")).length < 2 ^ 64

variable {m n : Method} {p q : String} {k l : Option String}
  {a b x y : Octets} {t u : UInt64}

/-- Method, path, key and body are read back from what is signed. -/
theorem outboundPayload_inj (h : Fits m p k) (h' : Fits n q l)
    (heq : outboundPayload m p k a = outboundPayload n q l b) :
    m = n ∧ p = q ∧ k.getD "" = l.getD "" ∧ a = b := by
  unfold outboundPayload at heq
  rw [Value.encode, Value.encode] at heq
  have hitems := List.append_cancel_left heq
  simp only [Value.encodeItems, List.append_nil] at hitems
  obtain ⟨hmethod, hitems⟩ := text_append_inj h.method h'.method hitems
  obtain ⟨hpath, hitems⟩ := text_append_inj h.path h'.path hitems
  obtain ⟨hkey, hbody⟩ := text_append_inj h.key h'.key hitems
  refine ⟨?_, hpath, hkey, octets_encode_inj hbody⟩
  cases m
  cases n
  cases hmethod
  rfl

/-- Second and payload are read back from what is hashed. -/
theorem signingInput_inj (h : signingInput t x = signingInput u y) :
    t = u ∧ x = y := by
  obtain ⟨hsecond, hpayload⟩ := encode_numbered_inj h
  exact ⟨hsecond, octets_encode_inj hpayload⟩

/-- Signed requests are told apart. What is signed for a request is the same
for two requests exactly if they agree in method, path, body and key, where
none counts as the empty one. What is hashed for it at a second tells the
second and what is signed. So two signatures have one digest only if they are
for one request at one second, or if a collision of the hash is at hand. -/
theorem requests_signed_apart (h : Fits m p k) (h' : Fits n q l)
    (a b : Octets) (t u : UInt64) :
    (outboundPayload m p k a = outboundPayload n q l b
      ↔ m = n ∧ p = q ∧ k.getD "" = l.getD "" ∧ a = b)
    ∧ (∀ x y, signingInput t x = signingInput u y ↔ t = u ∧ x = y)
    ∧ (signingDigest t (outboundPayload m p k a)
        = signingDigest u (outboundPayload n q l b) →
      (t = u ∧ m = n ∧ p = q ∧ k.getD "" = l.getD "" ∧ a = b)
      ∨ Collide (signingInput t (outboundPayload m p k a))
        (signingInput u (outboundPayload n q l b))) := by
  refine ⟨⟨outboundPayload_inj h h', ?agree⟩, fun x y => ⟨signingInput_inj, ?_⟩,
    ?digest⟩
  case agree =>
    rintro ⟨rfl, rfl, hkey, rfl⟩
    unfold outboundPayload
    rw [hkey]
  case digest =>
    intro hdigest
    rcases eq_or_collide hdigest with hsame | hcollide
    · obtain ⟨hsecond, hpayload⟩ := signingInput_inj hsame
      exact .inl ⟨hsecond, outboundPayload_inj h h' hpayload⟩
    · exact .inr hcollide
  · rintro ⟨rfl, rfl⟩
    rfl

namespace Sample

def put : Method := ⟨"PUT", by decide⟩

end Sample

/-- A key is not taken for the end of a path, and no key is an empty one. -/
theorem requests_signed_apart_shifted :
    Fits Sample.put "/a" (some "b") ∧ Fits Sample.put "/ab" none
    ∧ Fits Sample.put "/ab" (some "")
    ∧ outboundPayload Sample.put "/a" (some "b") []
      ≠ outboundPayload Sample.put "/ab" none []
    ∧ outboundPayload Sample.put "/ab" (some "") []
      = outboundPayload Sample.put "/ab" none [] := by
  have hkeyed : Fits Sample.put "/a" (some "b") :=
    ⟨by decide, by decide, by decide⟩
  have hkeyless : Fits Sample.put "/ab" none :=
    ⟨by decide, by decide, by decide⟩
  have hempty : Fits Sample.put "/ab" (some "") :=
    ⟨by decide, by decide, by decide⟩
  obtain ⟨⟨hapart, -⟩, -⟩ := requests_signed_apart hkeyed hkeyless [] [] 0 0
  obtain ⟨⟨-, hsame⟩, -⟩ := requests_signed_apart hempty hkeyless [] [] 0 0
  refine ⟨hkeyed, hkeyless, hempty, fun heq => ?_, hsame ⟨rfl, rfl, rfl, rfl⟩⟩
  exact absurd (hapart heq).2.1 (by decide)

end Signing

end OnceProxy
