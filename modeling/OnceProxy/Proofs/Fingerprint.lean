/-
Identities: what is hashed for a request tells requests apart.

The string hashed for the identity is four frames, of the method, of the
path in normal form, of the key and of the body's digest. It is cut apart
in one way only, so two requests with one string agree in all four. Whether
two identities with one digest have one string is a question to the hash
alone, and nothing is assumed of it here: where two requests share an
identity and are not the same, two strings are named that collide
(`requests_told_apart`).
-/
import OnceProxy.Fingerprint
import OnceProxy.Proofs.Octets

namespace OnceProxy

/-- A key has few octets. -/
theorem IdempotencyKey.length_ofText_lt (k : IdempotencyKey) :
    (Octets.ofText k.text).length < 2 ^ 64 := by
  have hle := Octets.length_ofText_le k.text
  have hvalid := k.valid
  unfold isKeyText at hvalid
  simp only [Bool.and_eq_true, decide_eq_true_eq] at hvalid
  have hlt := hvalid.2
  omega

namespace Fingerprint

open Octets

/-- The key is read back from what is hashed for the address. -/
theorem addressInput_inj {k l : IdempotencyKey}
    (h : addressInput k = addressInput l) : k = l := by
  unfold addressInput at h
  rw [← List.append_nil (framed (ofText k.text)),
    ← List.append_nil (framed (ofText l.text))] at h
  obtain ⟨hkey, -⟩ :=
    framed_append_inj k.length_ofText_lt l.length_ofText_lt h
  cases k
  cases l
  cases ofText_inj.mp hkey
  rfl

/-- Method, path and key are read back from what is hashed, and so is the
body's digest. -/
theorem identityInput_inj {m n : Http.Method} {p q : String}
    {k l : IdempotencyKey} {a b : Octets}
    (hm : (ofText m.text).length < 2 ^ 64)
    (hn : (ofText n.text).length < 2 ^ 64)
    (hp : (ofText (RequestPath.normalize p)).length < 2 ^ 64)
    (hq : (ofText (RequestPath.normalize q)).length < 2 ^ 64)
    (h : identityInput m p k a = identityInput n q l b) :
    m = n ∧ RequestPath.normalize p = RequestPath.normalize q ∧ k = l
      ∧ contentDigest a = contentDigest b := by
  unfold identityInput at h
  obtain ⟨hmethod, h⟩ := framed_append_inj hm hn h
  obtain ⟨hpath, h⟩ := framed_append_inj hp hq h
  obtain ⟨hkey, h⟩ :=
    framed_append_inj k.length_ofText_lt l.length_ofText_lt h
  rw [← List.append_nil (framed (contentDigest a).octets),
    ← List.append_nil (framed (contentDigest b).octets)] at h
  obtain ⟨hcontent, -⟩ := framed_append_inj (contentDigest a).length_lt
    (contentDigest b).length_lt h
  refine ⟨?_, ofText_inj.mp hpath, ?_,
    Crypto.Digest.octets_injective hcontent⟩
  · cases m
    cases n
    cases ofText_inj.mp hmethod
    rfl
  · cases k
    cases l
    cases ofText_inj.mp hkey
    rfl

-- ============================================================== requests

/-- The lengths of a method and of a path in normal form are numbers of 64
bits, as those of everything that is held in memory. -/
structure Fits (m : Http.Method) (p : String) : Prop where
  method : (ofText m.text).length < 2 ^ 64
  path : (ofText (RequestPath.normalize p)).length < 2 ^ 64

/-- Requests are told apart. What is hashed for the identity is the same for
two requests exactly if they agree in method, path in normal form, key and
digest of the body, and what is hashed for the address exactly if they agree
in the key. So if two requests share an identity, they agree in the body too,
or a collision of the hash is at hand; likewise for addresses. -/
theorem requests_told_apart {m n : Http.Method} {p q : String}
    (h : Fits m p) (h' : Fits n q) (k l : IdempotencyKey) (a b : Octets) :
    (identityInput m p k a = identityInput n q l b
      ↔ m = n ∧ RequestPath.normalize p = RequestPath.normalize q ∧ k = l
        ∧ contentDigest a = contentDigest b)
    ∧ (addressInput k = addressInput l ↔ k = l)
    ∧ ((ofRequest m p k a).id = (ofRequest n q l b).id →
      (m = n ∧ RequestPath.normalize p = RequestPath.normalize q ∧ k = l
        ∧ a = b)
      ∨ Crypto.Collide (identityInput m p k a) (identityInput n q l b)
      ∨ Crypto.Collide a b)
    ∧ ((ofRequest m p k a).entryKey = (ofRequest n q l b).entryKey →
      k = l ∨ Crypto.Collide (addressInput k) (addressInput l)) := by
  have hinput : identityInput m p k a = identityInput n q l b →
      m = n ∧ RequestPath.normalize p = RequestPath.normalize q ∧ k = l
        ∧ contentDigest a = contentDigest b :=
    identityInput_inj h.method h'.method h.path h'.path
  refine ⟨⟨hinput, ?agree⟩, ⟨addressInput_inj, congrArg _⟩, ?id, ?address⟩
  case agree =>
    intro hagree
    obtain ⟨hmethod, hpath, hkey, hcontent⟩ := hagree
    rw [identityInput, hmethod, hpath, hkey, hcontent, ← identityInput]
  case id =>
    intro hid
    rcases Crypto.eq_or_collide hid with hsame | hcollide
    · obtain ⟨hmethod, hpath, hkey, hcontent⟩ := hinput hsame
      rcases Crypto.eq_or_collide hcontent with hbody | hcollide
      · exact .inl ⟨hmethod, hpath, hkey, hbody⟩
      · exact .inr (.inr hcollide)
    · exact .inr (.inl hcollide)
  case address =>
    intro haddress
    rcases Crypto.eq_or_collide haddress with hsame | hcollide
    · exact .inl (addressInput_inj hsame)
    · exact .inr hcollide

namespace Sample

/-- A method, and keys that begin where a path ends. -/
def patch : Http.Method := ⟨"PATCH", by decide⟩
def short : IdempotencyKey := ⟨"c", by decide⟩
def long : IdempotencyKey := ⟨"bc", by decide⟩

end Sample

/-- Moving an octet from the path to the key gives another string; writing
the path in another way does not. -/
theorem requests_told_apart_shifted :
    Fits Sample.patch "/ab" ∧ Fits Sample.patch "/a" ∧ Fits Sample.patch "//a/"
    ∧ identityInput Sample.patch "/ab" Sample.short []
      ≠ identityInput Sample.patch "/a" Sample.long []
    ∧ identityInput Sample.patch "//a/" Sample.long []
      = identityInput Sample.patch "/a" Sample.long [] := by
  have hab : Fits Sample.patch "/ab" := ⟨by decide, by decide⟩
  have ha : Fits Sample.patch "/a" := ⟨by decide, by decide⟩
  have hslashes : Fits Sample.patch "//a/" := ⟨by decide, by decide⟩
  obtain ⟨⟨hapart, -⟩, -⟩ :=
    requests_told_apart hab ha Sample.short Sample.long [] []
  obtain ⟨⟨-, hsame⟩, -⟩ :=
    requests_told_apart hslashes ha Sample.long Sample.long [] []
  refine ⟨hab, ha, hslashes, fun heq => ?_, hsame ⟨rfl, by decide, rfl, rfl⟩⟩
  exact absurd (hapart heq).2.2.1 (by decide)

end Fingerprint

end OnceProxy
