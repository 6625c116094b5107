/-
Digests: octet strings of exactly 32 octets.

The length is part of the type, so a stored or received string has to be
checked once, where it is read (`ofOctets?`), and never again.
-/
import OnceProxy.Text.Hex

namespace OnceProxy.Crypto

/-- An octet string of 32 octets. -/
structure Digest where
  octets : Octets
  size : octets.length = 32
  deriving DecidableEq

namespace Digest

/-- The digest with these octets, if there are 32 of them. -/
def ofOctets? (b : Octets) : Option Digest :=
  if h : b.length = 32 then some ⟨b, h⟩ else none

/-- The digest as a number, most significant octet first. -/
def toNat (d : Digest) : Nat := Octets.ofBigEndian d.octets

/-- The digest of a number below `2 ^ 256`. -/
def ofNat (n : Nat) : Digest := ⟨Octets.bigEndian 32 n, by simp⟩

/-- Lower-case digits behind `0x`. -/
def render (d : Digest) : String := Text.Hex.prefixed d.octets

instance : Inhabited Digest := ⟨ofNat 0⟩

@[simp] theorem ofOctets?_octets (d : Digest) : ofOctets? d.octets = some d := by
  simp [ofOctets?, d.size]

theorem octets_injective {a b : Digest} (h : a.octets = b.octets) : a = b := by
  cases a; cases b; simp_all

end Digest

end OnceProxy.Crypto
