/-
Signers: a secret key together with its address.

A key is read from 64 hexadecimal digits. It comes from the environment or,
where that has none, from the configuration. Signatures travel as 65
octets: both scalars and one octet for the parity.
-/
import OnceProxy.Crypto.Secp256k1
import OnceProxy.Signing.Error
import OnceProxy.Text.Pieces

namespace OnceProxy

open Crypto Secp256k1 Signing

-- ================================================================ keys

/-- The address of a secret key. -/
def Crypto.Secp256k1.SecretKey.address (key : SecretKey) : Address :=
  match key.publicKey? with
  | some point => .ofPublicKey point
  | none => ⟨Octets.bigEndian 20 0, by simp⟩

/-- A secret key and its address. -/
structure Signer where
  key : SecretKey
  address : Address
  address_eq : address = key.address

namespace Signer

/-- The signer of a secret key. -/
def ofKey (key : SecretKey) : Signer := ⟨key, key.address, rfl⟩

/-- The first octet that is no hexadecimal digit, with its position. -/
def firstBadDigit (position : Nat) : Octets → Option (UInt8 × Nat)
  | [] => none
  | o :: rest =>
    if (Text.Hex.value? (Char.ofNat o.toNat)).isSome then firstBadDigit (position + 1) rest
    else some (o, position)

/-- The secret key of a scalar, if it is in range. -/
def keyOfScalar? (n : Nat) : Option SecretKey :=
  if h : 0 < n ∧ n < order then some ⟨n, h.1, h.2⟩ else none

/-- Reads a private key: white space around it and up to two prefixes are
dropped, then the length is looked at, then the digits, then the range. -/
def ofPrivateKey (text : String) : Except SigningError Signer :=
  let digits := Text.Hex.stripOne (Text.Hex.stripLower (Text.trim text.toList))
  let octets := Octets.ofText (String.ofList digits)
  let fault : KeyTextFault → Except SigningError Signer := fun f => .error (.invalidKey f)
  if octets.length % 2 = 1 then fault .oddLength
  else if octets.length ≠ 64 then fault .wrongLength
  else
    match firstBadDigit 0 octets with
    | some (o, position) => fault (.badDigit o position)
    | none =>
      match (Text.Hex.decodeChars digits).bind fun b => keyOfScalar? (Octets.ofBigEndian b) with
      | some key => .ok (ofKey key)
      | none => fault .outOfRange

/-- The signer of the environment's key. -/
def ofEnvironment (environment : Option String) : Except SigningError Signer :=
  match environment with
  | some text => ofPrivateKey text
  | none => .error (.missingKey .environment)

/-- The signer of the environment's key, or of the configured one. -/
def resolve (environment configured : Option String) : Except SigningError Signer :=
  match environment, configured with
  | some text, _ => ofPrivateKey text
  | none, some text => ofPrivateKey text
  | none, none => .error (.missingKey .environmentOrConfig)

/-- The private key as digits behind `0x`. -/
def privateKeyText (s : Signer) : String :=
  Text.Hex.prefixed (Octets.bigEndian 32 s.key.scalar)

/-- The signature of a digest. -/
def signDigest (s : Signer) (d : Digest) : Signature := Secp256k1.sign s.key d

end Signer

-- ========================================================== signatures

namespace Crypto.Secp256k1.Signature

/-- Both scalars and the parity, as 27 or 28. -/
def toOctets (g : Signature) : Octets :=
  Octets.bigEndian 32 g.r ++ (Octets.bigEndian 32 g.s ++ [if g.odd then 28 else 27])

/-- The parity that a last octet announces. From 35 on the octet also names
a chain, and its parity is that of an even value. -/
def parity? (v : UInt8) : Option Bool :=
  if v = 0 ∨ v = 27 then some false
  else if v = 1 ∨ v = 28 then some true
  else if 35 ≤ v then some (v % 2 = 0)
  else none

/-- Reads a signature of exactly 65 octets. -/
def ofOctets (b : Octets) : Except SignatureFault Signature :=
  if h : b.length = 65 then
    let last := b.getLastD 0
    match parity? last with
    | none => .error (.badParity last)
    | some odd =>
      .ok {
        r := Octets.ofBigEndian (b.take 32)
        s := Octets.ofBigEndian ((b.drop 32).take 32)
        odd := odd
        r_lt := by
          have := Octets.ofBigEndian_lt (b.take 32)
          have hl : (b.take 32).length = 32 := by simp; omega
          rwa [hl] at this
        s_lt := by
          have := Octets.ofBigEndian_lt ((b.drop 32).take 32)
          have hl : ((b.drop 32).take 32).length = 32 := by simp; omega
          rwa [hl] at this }
  else .error .wrongSize

/-- The address whose signature of the digest this is. -/
def signerOf (g : Signature) (d : Digest) : Except SignatureFault Address :=
  match recover? d g with
  | some point => .ok (.ofPublicKey point)
  | none => .error .unrecoverable

end Crypto.Secp256k1.Signature

end OnceProxy
