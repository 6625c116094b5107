/-
SHA-256 and the message authentication code built on it.

A message is padded to blocks of 64 octets; each block is expanded to a
schedule of 64 words, one per round, and the eight working words are added
to the chaining value after the rounds. `hmac` keys the hash with two
masks of the key.
-/
import OnceProxy.Octets

namespace OnceProxy.Crypto.Sha256

-- ============================================================== words

/-- The eight working words. -/
structure Chain where
  a : UInt32
  b : UInt32
  c : UInt32
  d : UInt32
  e : UInt32
  f : UInt32
  g : UInt32
  h : UInt32

/-- The chaining value before the first block. -/
def initial : Chain :=
  ⟨0x6a09e667, 0xbb67ae85, 0x3c6ef372, 0xa54ff53a,
   0x510e527f, 0x9b05688c, 0x1f83d9ab, 0x5be0cd19⟩

/-- The constants of the 64 rounds. -/
def roundConstants : List UInt32 :=
  [0x428a2f98, 0x71374491, 0xb5c0fbcf, 0xe9b5dba5, 0x3956c25b, 0x59f111f1, 0x923f82a4, 0xab1c5ed5,
   0xd807aa98, 0x12835b01, 0x243185be, 0x550c7dc3, 0x72be5d74, 0x80deb1fe, 0x9bdc06a7, 0xc19bf174,
   0xe49b69c1, 0xefbe4786, 0x0fc19dc6, 0x240ca1cc, 0x2de92c6f, 0x4a7484aa, 0x5cb0a9dc, 0x76f988da,
   0x983e5152, 0xa831c66d, 0xb00327c8, 0xbf597fc7, 0xc6e00bf3, 0xd5a79147, 0x06ca6351, 0x14292967,
   0x27b70a85, 0x2e1b2138, 0x4d2c6dfc, 0x53380d13, 0x650a7354, 0x766a0abb, 0x81c2c92e, 0x92722c85,
   0xa2bfe8a1, 0xa81a664b, 0xc24b8b70, 0xc76c51a3, 0xd192e819, 0xd6990624, 0xf40e3585, 0x106aa070,
   0x19a4c116, 0x1e376c08, 0x2748774c, 0x34b0bcb5, 0x391c0cb3, 0x4ed8aa4a, 0x5b9cca4f, 0x682e6ff3,
   0x748f82ee, 0x78a5636f, 0x84c87814, 0x8cc70208, 0x90befffa, 0xa4506ceb, 0xbef9a3f7, 0xc67178f2]

/-- Rotation to the right. -/
@[inline] def rotate (w : UInt32) (n : UInt32) : UInt32 := (w >>> n) ||| (w <<< (32 - n))

-- ============================================================= blocks

/-- Big-endian words of a block. -/
def wordsOf : Octets → List UInt32
  | a :: b :: c :: d :: rest =>
    ((a.toUInt32 <<< 24) ||| (b.toUInt32 <<< 16) ||| (c.toUInt32 <<< 8) ||| d.toUInt32)
      :: wordsOf rest
  | _ => []

/-- Extends the schedule, newest word first, by the given number of words. -/
def expand : Nat → List UInt32 → List UInt32
  | 0, w => w
  | more + 1, w =>
    let s0 := w.getD 14 0
    let s1 := w.getD 1 0
    let small0 := rotate s0 7 ^^^ rotate s0 18 ^^^ (s0 >>> 3)
    let small1 := rotate s1 17 ^^^ rotate s1 19 ^^^ (s1 >>> 10)
    expand more ((w.getD 15 0 + small0 + w.getD 6 0 + small1) :: w)

/-- One round with its constant and its schedule word. -/
def round (s : Chain) (kw : UInt32 × UInt32) : Chain :=
  let big1 := rotate s.e 6 ^^^ rotate s.e 11 ^^^ rotate s.e 25
  let choose := (s.e &&& s.f) ^^^ (~~~s.e &&& s.g)
  let t1 := s.h + big1 + choose + kw.1 + kw.2
  let big0 := rotate s.a 2 ^^^ rotate s.a 13 ^^^ rotate s.a 22
  let majority := (s.a &&& s.b) ^^^ (s.a &&& s.c) ^^^ (s.b &&& s.c)
  ⟨t1 + (big0 + majority), s.a, s.b, s.c, s.d + t1, s.e, s.f, s.g⟩

/-- The chaining value after a block. -/
def compress (s : Chain) (block : Octets) : Chain :=
  let schedule := (expand 48 (wordsOf block).reverse).reverse
  let t := (roundConstants.zip schedule).foldl round s
  ⟨s.a + t.a, s.b + t.b, s.c + t.c, s.d + t.d, s.e + t.e, s.f + t.f, s.g + t.g, s.h + t.h⟩

/-- Hashes the given number of blocks from the front of the message. -/
def absorb : Nat → Chain → Octets → Chain
  | 0, s, _ => s
  | blocks + 1, s, m => absorb blocks (compress s (m.take 64)) (m.drop 64)

/-- Padding to whole blocks: `0x80`, zeros, and the length in bits. -/
def padding (length : Nat) : Octets :=
  0x80 :: (List.replicate ((119 - length % 64) % 64) 0 ++ Octets.bigEndian 8 (length * 8))

end Sha256

open Sha256 in
/-- The SHA-256 digest of a message, as 32 octets. -/
def sha256 (m : Octets) : Octets :=
  let s := absorb ((m.length + 8) / 64 + 1) initial (m ++ padding m.length)
  [s.a, s.b, s.c, s.d, s.e, s.f, s.g, s.h].flatMap fun w => Octets.bigEndian 4 w.toNat

/-- The keyed code of a message; keys are at most 64 octets here. -/
def hmacSha256 (key message : Octets) : Octets :=
  let padded := key ++ List.replicate (64 - key.length) 0
  let inner := sha256 (padded.map (· ^^^ 0x36) ++ message)
  sha256 (padded.map (· ^^^ 0x5c) ++ inner)

end OnceProxy.Crypto
