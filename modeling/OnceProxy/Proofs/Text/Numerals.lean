/-
Numbers and octets that are written in digits read back.

A reader of hexadecimal digits looks at their values only, so the case of a
digit is of no account to it (`decodeChars_congr`); that is how an address
in checksum case is read. Decimal digits are those of the library, whose own
reading of them is brought in here.
-/
import Mathlib.Data.List.Basic
import OnceProxy.Crypto.Address
import OnceProxy.Text.Decimal

namespace OnceProxy

namespace Text.Hex

-- ======================================================== hexadecimal digits

theorem value?_digit {n : Nat} (h : n < 16) : value? (digit n) = some n := by
  have hall : ∀ n < 16, value? (digit n) = some n := by decide
  exact hall n h

theorem value?_toUpper (c : Char) : value? c.toUpper = value? c := by
  by_cases h : 'a'.val ≤ c.val ∧ c.val ≤ 'z'.val
  · have hletters : ∀ n < 123, 97 ≤ n →
        value? (Char.ofNat n).toUpper = value? (Char.ofNat n) := by decide
    have hlow : 97 ≤ c.toNat := UInt32.le_iff_toNat_le.mp h.1
    have hhigh : c.toNat ≤ 122 := UInt32.le_iff_toNat_le.mp h.2
    have hc := hletters c.toNat (Nat.lt_succ_of_le hhigh) hlow
    rw [Char.ofNat_toNat] at hc
    exact hc
  · unfold Char.toUpper
    rw [dif_neg h]

/-- A reader looks at the values of digits only. -/
theorem decodeChars_congr {cs ds : List Char}
    (h : cs.map value? = ds.map value?) : decodeChars cs = decodeChars ds := by
  induction cs using decodeChars.induct generalizing ds with
  | case1 =>
      obtain rfl := List.map_eq_nil_iff.mp h.symm
      rfl
  | case2 c =>
      obtain ⟨a, rfl, -⟩ := List.map_eq_singleton_iff.mp h.symm
      rfl
  | case3 c d rest ih =>
      obtain ⟨a, as, rfl, ha, has⟩ := List.map_eq_cons_iff.mp h.symm
      obtain ⟨b, tail, rfl, hb, htail⟩ := List.map_eq_cons_iff.mp has
      unfold decodeChars
      rw [ha, hb, ih htail.symm]

theorem decodeChars_encodeChars (b : Octets) :
    decodeChars (encodeChars b) = some b := by
  induction b with
  | nil => rfl
  | cons o b ih =>
      have ho := o.toNat_lt
      have hhigh : o.toNat / 16 < 16 := by omega
      have hlow : o.toNat % 16 < 16 := Nat.mod_lt _ (by decide)
      have hsum : o.toNat / 16 * 16 + o.toNat % 16 = o.toNat := by omega
      show decodeChars (digit (o.toNat / 16) :: digit (o.toNat % 16)
        :: encodeChars b) = _
      unfold decodeChars
      rw [value?_digit hhigh, value?_digit hlow, ih]
      simp only [Option.bind_eq_bind, Option.bind_some, hsum,
        UInt8.ofNat_toNat]
      rfl

/-- One prefix is dropped, whatever follows it. -/
theorem stripOne_prefixed (cs : List Char) :
    stripOne ("0x" ++ String.ofList cs).toList = cs := by
  rw [String.toList_append]
  exact String.toList_ofList

theorem mem_encodeChars {b : Octets} {c : Char} (h : c ∈ encodeChars b) :
    ∃ n < 16, c = digit n := by
  obtain ⟨o, -, hc⟩ := List.mem_flatMap.mp h
  have ho := o.toNat_lt
  rcases List.mem_cons.mp hc with rfl | hc
  · exact ⟨o.toNat / 16, by omega, rfl⟩
  · obtain rfl := List.mem_singleton.mp hc
    exact ⟨o.toNat % 16, Nat.mod_lt _ (by decide), rfl⟩

end Text.Hex

-- ============================================================== addresses

namespace Crypto.Address

open Text Hex

theorem map_value?_checksumCase (cs : List Char) (b : Octets) :
    (checksumCase cs b).map value? = cs.map value? := by
  induction cs, b using checksumCase.induct with
  | case1 h l rest o os ih =>
      have hcase : ∀ (c : Char) (nibble : Nat),
          value? (if 8 ≤ nibble then c.toUpper else c) = value? c := by
        intro c nibble
        split
        · exact value?_toUpper c
        · rfl
      unfold checksumCase
      simp only [List.map_cons, hcase, ih]
  | case2 cs b hshort =>
      unfold checksumCase
      split
      · next h l rest o os => exact absurd rfl (hshort h l rest o os rfl)
      · rfl

theorem parse?_render (a : Address) : parse? a.render = some a := by
  unfold parse? render
  dsimp only
  rw [stripOne_prefixed, decodeChars_congr (map_value?_checksumCase ..),
    decodeChars_encodeChars]
  show ofOctets? a.octets = some a
  unfold ofOctets?
  rw [dif_pos a.size]

end Crypto.Address

-- ========================================================= decimal numbers

namespace Text.Decimal

theorem value?_digitChar {n : Nat} (h : n < 10) :
    value? n.digitChar = some n := by
  have hall : ∀ n < 10, value? n.digitChar = some n := by decide
  exact hall n h

theorem ofDigits?_toDigits (n : Nat) :
    ofDigits? (Nat.toDigits 10 n) = some n := by
  have hread : ∀ n, (Nat.toDigits 10 n).foldlM
      (fun n c => (value? c).map (n * 10 + ·)) 0 = some n := by
    intro n
    induction n using Nat.strongRecOn with
    | ind n ih =>
      by_cases hn : n < 10
      · rw [Nat.toDigits_of_lt_base hn]
        simp [value?_digitChar hn]
      · have hlow : n % 10 < 10 := Nat.mod_lt _ (by decide)
        rw [Nat.toDigits_of_base_le (by decide) (Nat.not_lt.mp hn),
          List.foldlM_append, ih (n / 10) (by omega)]
        simp only [Option.bind_eq_bind, Option.bind_some, List.foldlM_cons,
          List.foldlM_nil, value?_digitChar hlow, Option.map_some]
        exact congrArg some (by omega)
  unfold ofDigits?
  rw [if_neg, hread]
  have hlen := Nat.length_toDigits_pos (b := 10) (n := n)
  rw [List.isEmpty_iff]
  intro hnil
  rw [hnil] at hlen
  exact Nat.lt_irrefl 0 hlen

theorem parseUInt64_render (n : UInt64) :
    parseUInt64 (render n.toNat) = some n := by
  have hplus : '+' ∉ Nat.toDigits 10 n.toNat := fun h =>
    absurd (Nat.isDigit_of_mem_toDigits (by decide) (by decide) h) (by decide)
  have hdigits : parseBelow UInt64.size (Nat.toDigits 10 n.toNat)
      = some n.toNat := by
    unfold parseBelow
    split
    · next rest heq =>
      rw [heq] at hplus
      exact absurd (List.mem_cons_self ..) hplus
    · dsimp only
      rw [ofDigits?_toDigits]
      exact if_pos n.toNat_lt
  unfold parseUInt64 render
  rw [String.toList_ofList, hdigits, Option.map_some, UInt64.ofNat_toNat]

end Text.Decimal

end OnceProxy
