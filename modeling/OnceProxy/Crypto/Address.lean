/-
Account addresses: the last 20 octets of the Keccak-256 digest of a public
key's coordinates.

The written form carries a checksum in the case of its letters: a letter is
upper case where the matching nibble of the digest of the lower-case digits
is 8 or more. Reading ignores the case.
-/
import OnceProxy.Crypto.Keccak

namespace OnceProxy.Crypto

/-- An address of 20 octets. -/
structure Address where
  octets : Octets
  size : octets.length = 20
  deriving DecidableEq

namespace Address

/-- The address with these octets, if there are 20 of them. -/
def ofOctets? (b : Octets) : Option Address :=
  if h : b.length = 20 then some ⟨b, h⟩ else none

/-- The address of a public key. -/
def ofPublicKey (key : Nat × Nat) : Address :=
  let d := keccak256 (Octets.bigEndian 32 key.1 ++ Octets.bigEndian 32 key.2)
  ⟨d.octets.drop 12, by simp [d.size]⟩

/-- The digits with the case of each letter taken from the digest's nibbles. -/
def checksumCase : List Char → Octets → List Char
  | h :: l :: rest, o :: os =>
    let cased (c : Char) (nibble : Nat) := if 8 ≤ nibble then c.toUpper else c
    cased h (o.toNat / 16) :: cased l (o.toNat % 16) :: checksumCase rest os
  | cs, _ => cs

/-- `0x` and 40 digits in checksum case. -/
def render (a : Address) : String :=
  let digits := Text.Hex.encodeChars a.octets
  let d := keccak256 (digits.map fun c => UInt8.ofNat c.toNat)
  "0x" ++ String.ofList (checksumCase digits d.octets)

/-- Reads 40 digits in any case, with or without one prefix. -/
def parse? (s : String) : Option Address := do
  ofOctets? (← Text.Hex.decodeChars (Text.Hex.stripOne s.toList))

end Address

end OnceProxy.Crypto
