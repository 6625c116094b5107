/-
Octet strings: how long the form of a text is, and where a frame ends.

Behind a length in front there is one way to cut a frame off, as long as
the length is a number of 64 bits. What is hashed for a request is made of
frames, so it can be read back (`Proofs/Fingerprint`).
-/
import Mathlib.Algebra.GroupWithZero.Nat
import OnceProxy.Crypto.Digest

namespace OnceProxy.Octets

theorem ofText_eq_flatMap (s : String) :
    ofText s = s.toList.flatMap String.utf8EncodeChar := by
  unfold ofText
  rw [← String.utf8Encode_toList]
  simp [List.utf8Encode]

/-- A text has at most four octets for each character. -/
theorem length_ofText_le (s : String) :
    (ofText s).length ≤ 4 * s.toList.length := by
  rw [ofText_eq_flatMap, List.length_flatMap]
  have hsum : ∀ cs : List Char,
      (cs.map fun c => (String.utf8EncodeChar c).length).sum
        ≤ 4 * cs.length := by
    intro cs
    induction cs with
    | nil => exact Nat.le_refl 0
    | cons c cs ih =>
        rw [List.map_cons, List.sum_cons, List.length_cons,
          String.length_utf8EncodeChar]
        have hc := c.utf8Size_le_four
        omega
  exact hsum _

/-- A number below `256 ^ width` reads back from its big-endian form. -/
theorem ofBigEndian_bigEndian {width n : Nat} (h : n < 256 ^ width) :
    ofBigEndian (bigEndian width n) = n := by
  induction width generalizing n with
  | zero =>
    have : n = 0 := by simpa using h
    simp [bigEndian, ofBigEndian, this]
  | succ w ih =>
    have hq : n / 256 < 256 ^ w := by
      rw [Nat.div_lt_iff_lt_mul (by decide)]
      simpa [Nat.pow_succ] using h
    rw [bigEndian, ofBigEndian_concat, ih hq]
    simp only [UInt8.toNat_ofNat']
    omega

/-- A frame is cut off in one way only. -/
theorem framed_append_inj {a b x y : Octets} (ha : a.length < 2 ^ 64)
    (hb : b.length < 2 ^ 64) (h : framed a ++ x = framed b ++ y) :
    a = b ∧ x = y := by
  unfold framed at h
  rw [List.append_assoc, List.append_assoc] at h
  obtain ⟨hlen, hrest⟩ := List.append_inj h (by simp)
  have hread : ∀ n < 2 ^ 64, ofBigEndian (bigEndian 8 n) = n :=
    fun n hn => ofBigEndian_bigEndian (by omega)
  have hlength : a.length = b.length := by
    rw [← hread _ ha, hlen, hread _ hb]
  exact List.append_inj hrest hlength

end OnceProxy.Octets

/-- A digest has few octets. -/
theorem OnceProxy.Crypto.Digest.length_lt (d : OnceProxy.Crypto.Digest) :
    d.octets.length < 2 ^ 64 := by
  rw [d.size]
  decide
