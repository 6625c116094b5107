/-
Octet strings: the common currency of every format in this library.

An octet string is a list, so that codecs can be described by recursion
on it and joined by `++`. Texts cross into it through UTF-8
(`ofText`, `toText?`), numbers through a fixed-width big-endian form
(`bigEndian`, `ofBigEndian`), and fields that are to be told apart inside
one hash input through an eight-octet length in front (`framed`).
-/
namespace OnceProxy

/-- A string of octets. -/
abbrev Octets := List UInt8

namespace Octets

-- ================================================================ text

/-- The UTF-8 form of a text. -/
def ofText (s : String) : Octets := s.toByteArray.data.toList

/-- The text whose UTF-8 form is `b`, if `b` is one. -/
def toText? (b : Octets) : Option String := String.fromUTF8? ⟨b.toArray⟩

/-- One octet per character code; meant for texts of characters below 256. -/
def ofLatin1 (s : String) : Octets := s.toList.map fun c => UInt8.ofNat c.toNat

/-- One character per octet, whatever the octet is. -/
def toLatin1 (b : Octets) : String := String.ofList (b.map fun o => Char.ofNat o.toNat)

/-- The text form of a UTF-8 form is the text itself. -/
theorem toText?_ofText (s : String) : toText? (ofText s) = some s := by
  have h : (⟨(ofText s).toArray⟩ : ByteArray) = s.toByteArray := by simp [ofText]
  unfold toText? String.fromUTF8?
  rw [h]
  simp [s.isValidUTF8, String.fromUTF8]

/-- A text is determined by its UTF-8 form. -/
@[simp] theorem ofText_inj {s t : String} : ofText s = ofText t ↔ s = t := by
  constructor
  · intro h
    have hs := toText?_ofText s
    rw [h, toText?_ofText] at hs
    exact (Option.some.inj hs).symm
  · intro h
    rw [h]

-- ============================================================= numbers

/-- `n` modulo `256 ^ width`, most significant octet first. -/
def bigEndian : Nat → Nat → Octets
  | 0, _ => []
  | width + 1, n => bigEndian width (n / 256) ++ [UInt8.ofNat n]

/-- The number whose digits in base 256 are these octets. -/
def ofBigEndian (b : Octets) : Nat := b.foldl (fun n o => n * 256 + o.toNat) 0

/-- `n` modulo `256 ^ width`, least significant octet first. -/
def littleEndian : Nat → Nat → Octets
  | 0, _ => []
  | width + 1, n => UInt8.ofNat n :: littleEndian width (n / 256)

@[simp] theorem length_bigEndian (width n : Nat) : (bigEndian width n).length = width := by
  induction width generalizing n with
  | zero => rfl
  | succ w ih => simp [bigEndian, ih]

@[simp] theorem length_littleEndian (width n : Nat) :
    (littleEndian width n).length = width := by
  induction width generalizing n with
  | zero => rfl
  | succ w ih => simp [littleEndian, ih]

/-- Reading an octet more appends a digit. -/
theorem ofBigEndian_concat (b : Octets) (o : UInt8) :
    ofBigEndian (b ++ [o]) = ofBigEndian b * 256 + o.toNat := by
  simp [ofBigEndian]

/-- So many octets make a number below that power of 256. -/
theorem ofBigEndian_lt (b : Octets) :
    ofBigEndian b < Nat.pow 256 b.length := by
  have step : ∀ (b : Octets) (n : Nat),
      b.foldl (fun n o => n * 256 + o.toNat) n
        < (n + 1) * Nat.pow 256 b.length := by
    intro b
    induction b with
    | nil => intro n; simp
    | cons o b ih =>
      intro n
      have h := ih (n * 256 + o.toNat)
      have ho : o.toNat < 256 := o.toNat_lt
      calc _ < (n * 256 + o.toNat + 1) * Nat.pow 256 b.length := h
        _ ≤ ((n + 1) * 256) * Nat.pow 256 b.length :=
          Nat.mul_le_mul_right _ (by omega)
        _ = (n + 1) * Nat.pow 256 (b.length + 1) := by
          rw [show Nat.pow 256 (b.length + 1) = Nat.pow 256 b.length * 256 from rfl]
          ac_rfl
  simpa [ofBigEndian] using step b 0

-- ============================================================= framing

/-- The field behind its own length, eight octets wide, so that a sequence
of framed fields can be cut apart in one way only. -/
def framed (field : Octets) : Octets := bigEndian 8 field.length ++ field

/-- Drops leading zero octets. -/
def trimZeros (b : Octets) : Octets := b.dropWhile (· == 0)

end Octets

end OnceProxy
