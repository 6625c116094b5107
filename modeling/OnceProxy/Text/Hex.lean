/-
Hexadecimal text: two digits per octet, high nibble first.

Written in lower case; read in either case. Which prefixes a reader strips
first is the business of the field that is read (`stripOne`).
-/
import OnceProxy.Octets

namespace OnceProxy.Text.Hex

-- ============================================================== digits

/-- The lower-case digit of a value below 16. -/
def digit (n : Nat) : Char :=
  if n < 10 then Char.ofNat (48 + n) else Char.ofNat (87 + n)

/-- The value of a digit in either case. -/
def value? (c : Char) : Option Nat :=
  let n := c.toNat
  if 48 ≤ n ∧ n ≤ 57 then some (n - 48)
  else if 97 ≤ n ∧ n ≤ 102 then some (n - 87)
  else if 65 ≤ n ∧ n ≤ 70 then some (n - 55)
  else none

-- ======================================================= octet strings

/-- Two lower-case digits per octet. -/
def encodeChars (b : Octets) : List Char :=
  b.flatMap fun o => [digit (o.toNat / 16), digit (o.toNat % 16)]

/-- Two lower-case digits per octet, as a text. -/
def encode (b : Octets) : String := String.ofList (encodeChars b)

/-- The octets that an even number of digits spells. -/
def decodeChars : List Char → Option Octets
  | [] => some []
  | [_] => none
  | h :: l :: rest => do
    let hi ← value? h
    let lo ← value? l
    let tail ← decodeChars rest
    return UInt8.ofNat (hi * 16 + lo) :: tail

/-- The octets that a text of digits spells. -/
def decode (s : String) : Option Octets := decodeChars s.toList

/-- Drops one `0x` from the front. -/
def stripLower : List Char → List Char
  | '0' :: 'x' :: rest => rest
  | cs => cs

/-- Drops one `0x` or `0X` from the front. -/
def stripOne : List Char → List Char
  | '0' :: 'x' :: rest => rest
  | '0' :: 'X' :: rest => rest
  | cs => cs

/-- The lower-case digits behind `0x`. -/
def prefixed (b : Octets) : String := "0x" ++ encode b

end OnceProxy.Text.Hex
