/-
The URL-safe spelling of octets reads back.

Between octets and characters lie values below 64 (`sextets`): the characters
are the digits of these values, and the digits have different values
(`value?_digit`), so that the arithmetic of cutting three octets into four
values and joining them is all that is left (`decodeValues_sextets`). No digit
is white space, so nothing is trimmed off a spelling.
-/
import Mathlib.Data.List.Basic
import OnceProxy.Proofs.Text.Pieces
import OnceProxy.Text.Base64Url

namespace OnceProxy.Text.Base64Url

-- ================================================================= digits

theorem value?_digit {n : Nat} (h : n < 64) : value? (digit n) = some n := by
  have hall : ∀ n < 64, value? (digit n) = some n := by decide
  exact hall n h

theorem isWhiteSpace_digit {n : Nat} (h : n < 64) :
    isWhiteSpace (digit n) = false := by
  have hall : ∀ n < 64, isWhiteSpace (digit n) = false := by decide
  exact hall n h

-- ================================================================= values

/-- The values that the characters of an octet string stand for. -/
def sextets : Octets → List Nat
  | [] => []
  | [a] => [a.toNat / 4, a.toNat % 4 * 16]
  | [a, b] =>
    [a.toNat / 4, a.toNat % 4 * 16 + b.toNat / 16, b.toNat % 16 * 4]
  | a :: b :: c :: rest =>
    (a.toNat / 4) :: (a.toNat % 4 * 16 + b.toNat / 16) ::
      (b.toNat % 16 * 4 + c.toNat / 64) :: (c.toNat % 64) :: sextets rest

theorem encodeChars_eq (b : Octets) : encodeChars b = (sextets b).map digit := by
  induction b using sextets.induct with
  | case1 | case2 a | case3 a b => rfl
  | case4 a b c rest ih =>
      unfold encodeChars sextets
      rw [ih]
      rfl

theorem sextets_lt {b : Octets} {n : Nat} (h : n ∈ sextets b) : n < 64 := by
  have hlow : ∀ o : UInt8, o.toNat < 256 := fun o => o.toNat_lt
  induction b using sextets.induct with
  | case1 => cases h
  | case2 a =>
      have ha := hlow a
      simp only [sextets, List.mem_cons, List.not_mem_nil, or_false] at h
      omega
  | case3 a b =>
      have ha := hlow a
      have hb := hlow b
      simp only [sextets, List.mem_cons, List.not_mem_nil, or_false] at h
      omega
  | case4 a b c rest ih =>
      have ha := hlow a
      have hb := hlow b
      have hc := hlow c
      simp only [sextets, List.mem_cons] at h
      rcases h with h | h | h | h | h
      · omega
      · omega
      · omega
      · omega
      · exact ih h

/-- An octet is put together from its parts. -/
theorem ofNat_eq_of_toNat {o : UInt8} {n : Nat} (h : n = o.toNat) :
    UInt8.ofNat n = o := by
  rw [h, UInt8.ofNat_toNat]

theorem decodeValues_sextets (b : Octets) : decodeValues (sextets b) = some b := by
  induction b using sextets.induct with
  | case1 => rfl
  | case2 a =>
      have ha := a.toNat_lt
      have hrest : a.toNat % 4 * 16 % 16 = 0 := by omega
      have hjoin : UInt8.ofNat (a.toNat / 4 * 4 + a.toNat % 4 * 16 / 16) = a :=
        ofNat_eq_of_toNat (by omega)
      simp only [sextets, decodeValues, hrest, if_true, hjoin]
  | case3 a b =>
      have ha := a.toNat_lt
      have hb := b.toNat_lt
      have hrest : b.toNat % 16 * 4 % 4 = 0 := by omega
      have hfirst : UInt8.ofNat (a.toNat / 4 * 4
          + (a.toNat % 4 * 16 + b.toNat / 16) / 16) = a :=
        ofNat_eq_of_toNat (by omega)
      have hsecond : UInt8.ofNat ((a.toNat % 4 * 16 + b.toNat / 16) % 16 * 16
          + b.toNat % 16 * 4 / 4) = b :=
        ofNat_eq_of_toNat (by omega)
      simp only [sextets, decodeValues, hrest, if_true, hfirst, hsecond]
  | case4 a b c rest ih =>
      have ha := a.toNat_lt
      have hb := b.toNat_lt
      have hc := c.toNat_lt
      have hfirst : UInt8.ofNat (a.toNat / 4 * 4
          + (a.toNat % 4 * 16 + b.toNat / 16) / 16) = a :=
        ofNat_eq_of_toNat (by omega)
      have hsecond : UInt8.ofNat ((a.toNat % 4 * 16 + b.toNat / 16) % 16 * 16
          + (b.toNat % 16 * 4 + c.toNat / 64) / 4) = b :=
        ofNat_eq_of_toNat (by omega)
      have hthird : UInt8.ofNat ((b.toNat % 16 * 4 + c.toNat / 64) % 4 * 64
          + c.toNat % 64) = c :=
        ofNat_eq_of_toNat (by omega)
      unfold sextets
      rw [decodeValues, ih]
      simp only [Option.bind_eq_bind, Option.bind_some, Option.pure_def,
        hfirst, hsecond, hthird]

-- ================================================================ spelling

theorem mapM_value?_digits {ns : List Nat} (h : ∀ n ∈ ns, n < 64) :
    (ns.map digit).mapM value? = some ns := by
  induction ns with
  | nil => rfl
  | cons n ns ih =>
      have hn := value?_digit (h n (List.mem_cons_self ..))
      have hns := ih fun m hm => h m (List.mem_cons_of_mem n hm)
      rw [List.map_cons, List.mapM_cons, hn, hns]
      rfl

/-- What was spelled is read. -/
theorem decodeChars_encodeChars (b : Octets) :
    decodeChars (encodeChars b) = some b := by
  unfold decodeChars
  rw [encodeChars_eq, mapM_value?_digits fun n => sextets_lt]
  exact decodeValues_sextets b

theorem isWhiteSpace_of_mem {b : Octets} {c : Char} (h : c ∈ encodeChars b) :
    isWhiteSpace c = false := by
  rw [encodeChars_eq] at h
  obtain ⟨n, hn, rfl⟩ := List.mem_map.mp h
  exact isWhiteSpace_digit (sextets_lt hn)

/-- A spelling has nothing to trim. -/
theorem trim_encodeChars (b : Octets) : trim (encodeChars b) = encodeChars b := by
  by_cases hb : encodeChars b = []
  · rw [hb]
    rfl
  · have htrim : trimChars isWhiteSpace ([] ++ (encodeChars b ++ []))
        = encodeChars b :=
      trimChars_append (fun _ hc => absurd hc List.not_mem_nil)
        (fun _ hc => absurd hc List.not_mem_nil)
        (fun c hc => isWhiteSpace_of_mem hc) hb
    rw [List.nil_append, List.append_nil] at htrim
    exact htrim

end OnceProxy.Text.Base64Url
