/-
Keccak-256: the sponge with a rate of 136 octets, the first padding octet
`0x01`, and a digest of 32 octets.

The state is 25 lanes of 64 bits; lane `x + 5 * y` stands in column `x`
and row `y`. A message is padded to whole blocks, each block is xored into
the first seventeen lanes and the permutation is applied; the digest is the
first four lanes.
-/
import OnceProxy.Crypto.Digest

namespace OnceProxy.Crypto.Keccak

/-- The 25 lanes of the sponge. -/
structure Lanes where
  l0 : UInt64
  l1 : UInt64
  l2 : UInt64
  l3 : UInt64
  l4 : UInt64
  l5 : UInt64
  l6 : UInt64
  l7 : UInt64
  l8 : UInt64
  l9 : UInt64
  l10 : UInt64
  l11 : UInt64
  l12 : UInt64
  l13 : UInt64
  l14 : UInt64
  l15 : UInt64
  l16 : UInt64
  l17 : UInt64
  l18 : UInt64
  l19 : UInt64
  l20 : UInt64
  l21 : UInt64
  l22 : UInt64
  l23 : UInt64
  l24 : UInt64

/-- A state of zeros. -/
def Lanes.zero : Lanes :=
  ⟨0, 0, 0, 0, 0, 0, 0, 0, 0, 0, 0, 0, 0, 0, 0, 0, 0, 0, 0, 0, 0, 0, 0, 0, 0⟩

/-- Rotation to the left. -/
@[inline] def rotate (w : UInt64) (n : UInt64) : UInt64 := (w <<< n) ||| (w >>> (64 - n))

-- ==================================================== the permutation

/-- One round: column parities, rotation and transposition of the lanes,
the non-linear row step, and the round constant. -/
def round (s : Lanes) (constant : UInt64) : Lanes :=
  let c0 := s.l0 ^^^ s.l5 ^^^ s.l10 ^^^ s.l15 ^^^ s.l20
  let c1 := s.l1 ^^^ s.l6 ^^^ s.l11 ^^^ s.l16 ^^^ s.l21
  let c2 := s.l2 ^^^ s.l7 ^^^ s.l12 ^^^ s.l17 ^^^ s.l22
  let c3 := s.l3 ^^^ s.l8 ^^^ s.l13 ^^^ s.l18 ^^^ s.l23
  let c4 := s.l4 ^^^ s.l9 ^^^ s.l14 ^^^ s.l19 ^^^ s.l24
  let d0 := c4 ^^^ rotate c1 1
  let d1 := c0 ^^^ rotate c2 1
  let d2 := c1 ^^^ rotate c3 1
  let d3 := c2 ^^^ rotate c4 1
  let d4 := c3 ^^^ rotate c0 1
  let b0 := s.l0 ^^^ d0
  let b10 := rotate (s.l1 ^^^ d1) 1
  let b20 := rotate (s.l2 ^^^ d2) 62
  let b5 := rotate (s.l3 ^^^ d3) 28
  let b15 := rotate (s.l4 ^^^ d4) 27
  let b16 := rotate (s.l5 ^^^ d0) 36
  let b1 := rotate (s.l6 ^^^ d1) 44
  let b11 := rotate (s.l7 ^^^ d2) 6
  let b21 := rotate (s.l8 ^^^ d3) 55
  let b6 := rotate (s.l9 ^^^ d4) 20
  let b7 := rotate (s.l10 ^^^ d0) 3
  let b17 := rotate (s.l11 ^^^ d1) 10
  let b2 := rotate (s.l12 ^^^ d2) 43
  let b12 := rotate (s.l13 ^^^ d3) 25
  let b22 := rotate (s.l14 ^^^ d4) 39
  let b23 := rotate (s.l15 ^^^ d0) 41
  let b8 := rotate (s.l16 ^^^ d1) 45
  let b18 := rotate (s.l17 ^^^ d2) 15
  let b3 := rotate (s.l18 ^^^ d3) 21
  let b13 := rotate (s.l19 ^^^ d4) 8
  let b14 := rotate (s.l20 ^^^ d0) 18
  let b24 := rotate (s.l21 ^^^ d1) 2
  let b9 := rotate (s.l22 ^^^ d2) 61
  let b19 := rotate (s.l23 ^^^ d3) 56
  let b4 := rotate (s.l24 ^^^ d4) 14
  ⟨(b0 ^^^ (~~~b1 &&& b2)) ^^^ constant,
   b1 ^^^ (~~~b2 &&& b3),
   b2 ^^^ (~~~b3 &&& b4),
   b3 ^^^ (~~~b4 &&& b0),
   b4 ^^^ (~~~b0 &&& b1),
   b5 ^^^ (~~~b6 &&& b7),
   b6 ^^^ (~~~b7 &&& b8),
   b7 ^^^ (~~~b8 &&& b9),
   b8 ^^^ (~~~b9 &&& b5),
   b9 ^^^ (~~~b5 &&& b6),
   b10 ^^^ (~~~b11 &&& b12),
   b11 ^^^ (~~~b12 &&& b13),
   b12 ^^^ (~~~b13 &&& b14),
   b13 ^^^ (~~~b14 &&& b10),
   b14 ^^^ (~~~b10 &&& b11),
   b15 ^^^ (~~~b16 &&& b17),
   b16 ^^^ (~~~b17 &&& b18),
   b17 ^^^ (~~~b18 &&& b19),
   b18 ^^^ (~~~b19 &&& b15),
   b19 ^^^ (~~~b15 &&& b16),
   b20 ^^^ (~~~b21 &&& b22),
   b21 ^^^ (~~~b22 &&& b23),
   b22 ^^^ (~~~b23 &&& b24),
   b23 ^^^ (~~~b24 &&& b20),
   b24 ^^^ (~~~b20 &&& b21)⟩

/-- The constants of the 24 rounds. -/
def roundConstants : List UInt64 :=
  [0x0000000000000001, 0x0000000000008082, 0x800000000000808A,
   0x8000000080008000, 0x000000000000808B, 0x0000000080000001,
   0x8000000080008081, 0x8000000000008009, 0x000000000000008A,
   0x0000000000000088, 0x0000000080008009, 0x000000008000000A,
   0x000000008000808B, 0x800000000000008B, 0x8000000000008089,
   0x8000000000008003, 0x8000000000008002, 0x8000000000000080,
   0x000000000000800A, 0x800000008000000A, 0x8000000080008081,
   0x8000000000008080, 0x0000000080000001, 0x8000000080008008]

/-- The 24 rounds in order. -/
def permute (s : Lanes) : Lanes := roundConstants.foldl round s

-- ======================================================== the sponge

/-- The rate: octets absorbed per permutation. -/
def rate : Nat := 136

/-- Padding to whole blocks: `0x01`, zeros, and the top bit of the last octet. -/
def padding (length : Nat) : Octets :=
  let gap := rate - length % rate
  if gap = 1 then [0x81] else 0x01 :: (List.replicate (gap - 2) 0 ++ [0x80])

/-- The next lane, least significant octet first, and the octets after it. -/
def takeLane : Octets → UInt64 × Octets
  | a :: b :: c :: d :: e :: f :: g :: h :: rest =>
    (a.toUInt64 ||| (b.toUInt64 <<< 8) ||| (c.toUInt64 <<< 16) ||| (d.toUInt64 <<< 24) |||
      (e.toUInt64 <<< 32) ||| (f.toUInt64 <<< 40) ||| (g.toUInt64 <<< 48) ||| (h.toUInt64 <<< 56),
     rest)
  | _ => (0, [])

/-- Takes one block off the message: the state after absorbing it, and the
octets after the block. -/
def absorbBlock (s : Lanes) (m : Octets) : Lanes × Octets :=
  let (w0, m0) := takeLane m
  let (w1, m1) := takeLane m0
  let (w2, m2) := takeLane m1
  let (w3, m3) := takeLane m2
  let (w4, m4) := takeLane m3
  let (w5, m5) := takeLane m4
  let (w6, m6) := takeLane m5
  let (w7, m7) := takeLane m6
  let (w8, m8) := takeLane m7
  let (w9, m9) := takeLane m8
  let (w10, m10) := takeLane m9
  let (w11, m11) := takeLane m10
  let (w12, m12) := takeLane m11
  let (w13, m13) := takeLane m12
  let (w14, m14) := takeLane m13
  let (w15, m15) := takeLane m14
  let (w16, m16) := takeLane m15
  (permute
    ⟨s.l0 ^^^ w0, s.l1 ^^^ w1, s.l2 ^^^ w2, s.l3 ^^^ w3,
     s.l4 ^^^ w4, s.l5 ^^^ w5, s.l6 ^^^ w6, s.l7 ^^^ w7,
     s.l8 ^^^ w8, s.l9 ^^^ w9, s.l10 ^^^ w10, s.l11 ^^^ w11,
     s.l12 ^^^ w12, s.l13 ^^^ w13, s.l14 ^^^ w14, s.l15 ^^^ w15,
     s.l16 ^^^ w16, s.l17, s.l18, s.l19,
     s.l20, s.l21, s.l22, s.l23,
     s.l24⟩,
   m16)

/-- Absorbs the given number of blocks. -/
def absorb : Nat → Lanes → Octets → Lanes
  | 0, s, _ => s
  | blocks + 1, s, m =>
    let (s, rest) := absorbBlock s m
    absorb blocks s rest

end Keccak

open Keccak in
/-- The Keccak-256 digest of a message. -/
def keccak256 (m : Octets) : Digest :=
  let s := absorb (m.length / rate + 1) .zero (m ++ padding m.length)
  ⟨[s.l0, s.l1, s.l2, s.l3].flatMap fun w => Octets.littleEndian 8 w.toNat, by simp⟩

/-- Two messages share a digest. -/
def Collide (x y : Octets) : Prop := x ≠ y ∧ keccak256 x = keccak256 y

/-- Messages of one digest are equal or collide. -/
theorem eq_or_collide {x y : Octets} (h : keccak256 x = keccak256 y) : x = y ∨ Collide x y := by
  by_cases heq : x = y
  · exact .inl heq
  · exact .inr ⟨heq, h⟩

end OnceProxy.Crypto
