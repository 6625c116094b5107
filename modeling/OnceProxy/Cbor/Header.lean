/-
Item heads of the binary format CBOR.

Every item starts with a head: three bits of kind and an argument, which
stands in the same octet or in the one, two, four or eight octets behind
it. `head` writes the shortest form; `Header.read` accepts every form. The
kinds that announce contents (strings, arrays, maps) may leave their length
open, and then a break head ends them.
-/
import OnceProxy.Octets

namespace OnceProxy.Cbor

/-- The shortest head of a kind (0 to 7) with an argument below `2 ^ 64`. -/
def head (kind n : Nat) : Octets :=
  let lead (low : Nat) : UInt8 := UInt8.ofNat (kind * 32 + low)
  if n < 24 then [lead n]
  else if n < 0x100 then lead 24 :: Octets.bigEndian 1 n
  else if n < 0x10000 then lead 25 :: Octets.bigEndian 2 n
  else if n < 0x100000000 then lead 26 :: Octets.bigEndian 4 n
  else lead 27 :: Octets.bigEndian 8 n

/-- What a head announces; an open length is `none`. -/
inductive Header where
  /-- The integer `n`. -/
  | unsigned (n : Nat)
  /-- The integer `-1 - n`. -/
  | negative (n : Nat)
  /-- An octet string. -/
  | octets (length : Option Nat)
  /-- A text string, counted in octets. -/
  | text (length : Option Nat)
  /-- A sequence of items. -/
  | array (length : Option Nat)
  /-- A sequence of pairs of items. -/
  | map (length : Option Nat)
  /-- A tag on the item behind it. -/
  | tag (n : Nat)
  /-- A float, whose octets are part of the head. -/
  | float
  /-- A simple value. -/
  | simple (n : Nat)
  /-- The end of an open length. -/
  | stop
  deriving DecidableEq

/-- Cuts `n` octets off the front, if there are as many. -/
def take? (n : Nat) (b : Octets) : Option (Octets × Octets) :=
  let front := b.take n
  if front.length = n then some (front, b.drop n) else none

/-- The argument that the low five bits announce: `none` inside for an open
one, and the octets behind it. -/
def readArgument (low : Nat) (b : Octets) : Option (Option Nat × Octets) :=
  let wide (width : Nat) := (take? width b).map fun (f, rest) => (some (Octets.ofBigEndian f), rest)
  if low < 24 then some (some low, b)
  else if low = 24 then wide 1
  else if low = 25 then wide 2
  else if low = 26 then wide 4
  else if low = 27 then wide 8
  else if low = 31 then some (none, b)
  else none

/-- The head that a kind and an argument make. -/
def Header.make? (kind low : Nat) (argument : Option Nat) : Option Header :=
  match kind, argument with
  | 0, some n => some (.unsigned n)
  | 1, some n => some (.negative n)
  | 2, n => some (.octets n)
  | 3, n => some (.text n)
  | 4, n => some (.array n)
  | 5, n => some (.map n)
  | 6, some n => some (.tag n)
  | 7, none => some .stop
  | 7, some n => some (if low ≤ 24 then .simple n else .float)
  | _, _ => none

/-- Reads one head off the front. -/
def Header.read : Octets → Option (Header × Octets)
  | [] => none
  | o :: b => do
    let kind := o.toNat / 32
    let low := o.toNat % 32
    let (argument, rest) ← readArgument low b
    return (← Header.make? kind low argument, rest)

end OnceProxy.Cbor
