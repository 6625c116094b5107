/-
The curve y² = x³ + 7 over the field of 2^256 - 2^32 - 977 elements, and
ECDSA on it: deterministic signatures with a low `s`, and recovery of the
public key from a signature and the parity of its curve point.

Points are kept in Jacobian form, where (x, y, z) with z ≠ 0 stands for
(x / z², y / z³) and z = 0 for the neutral point, so that one multiplication
by a scalar needs a single inversion at its end.
-/
import OnceProxy.Crypto.Digest
import OnceProxy.Crypto.Sha256

namespace OnceProxy.Crypto.Secp256k1

-- =============================================================== field

/-- The size of the base field. -/
def fieldSize : Nat := 0xFFFFFFFFFFFFFFFFFFFFFFFFFFFFFFFFFFFFFFFFFFFFFFFFFFFFFFFEFFFFFC2F

/-- The order of the group. -/
def order : Nat := 0xFFFFFFFFFFFFFFFFFFFFFFFFFFFFFFFEBAAEDCE6AF48A03BBFD25E8CD0364141

/-- `a ^ e` modulo `m`, for exponents below `2 ^ bits`. -/
def powMod (m : Nat) : Nat → Nat → Nat → Nat
  | 0, _, _ => 1
  | bits + 1, a, e =>
    let half := powMod m bits (a * a % m) (e / 2)
    if e % 2 = 1 then a * half % m else half

/-- The inverse modulo a prime below `2 ^ 256`. -/
def inverse (m a : Nat) : Nat := powMod m 256 (a % m) (m - 2)

/-- Difference modulo `m` of two residues. -/
def subMod (m a b : Nat) : Nat := (a + (m - b % m)) % m

-- ============================================================== points

/-- A point in Jacobian form. -/
structure Point where
  x : Nat
  y : Nat
  z : Nat

/-- The neutral point. -/
def neutral : Point := ⟨1, 1, 0⟩

/-- The generator of the group. -/
def generator : Point :=
  ⟨0x79BE667EF9DCBBAC55A06295CE870B07029BFCDB2DCE28D959F2815B16F81798,
   0x483ADA7726A3C4655DA4FBFC0E1108A8FD17B448A68554199C47D08FFB10D4B8, 1⟩

/-- Twice a point. -/
def double (p : Point) : Point :=
  if p.z = 0 ∨ p.y = 0 then neutral
  else
    let q := fieldSize
    let yy := p.y * p.y % q
    let s := 4 * p.x * yy % q
    let m := 3 * p.x * p.x % q
    let x := subMod q (m * m) (2 * s)
    let y := subMod q (m * subMod q s x) (8 * yy * yy)
    ⟨x, y, 2 * p.y * p.z % q⟩

/-- The sum of two points. -/
def add (a b : Point) : Point :=
  if a.z = 0 then b
  else if b.z = 0 then a
  else
    let q := fieldSize
    let zza := a.z * a.z % q
    let zzb := b.z * b.z % q
    let ua := a.x * zzb % q
    let ub := b.x * zza % q
    let sa := a.y * zzb * b.z % q
    let sb := b.y * zza * a.z % q
    if ua = ub then (if sa = sb then double a else neutral)
    else
      let h := subMod q ub ua
      let r := subMod q sb sa
      let hh := h * h % q
      let hhh := h * hh % q
      let v := ua * hh % q
      let x := subMod q (r * r) (hhh + 2 * v)
      let y := subMod q (r * subMod q v x) (sa * hhh)
      ⟨x, y, h * a.z * b.z % q⟩

/-- `k` times a point, for `k` below `2 ^ bits`. -/
def multiply : Nat → Nat → Point → Point
  | 0, _, _ => neutral
  | bits + 1, k, p =>
    let half := double (multiply bits (k / 2) p)
    if k % 2 = 1 then add half p else half

/-- The coordinates of a point that is not neutral. -/
def affine? (p : Point) : Option (Nat × Nat) :=
  if p.z = 0 then none
  else
    let q := fieldSize
    let iz := inverse q p.z
    let izz := iz * iz % q
    some (p.x * izz % q, p.y * izz * iz % q)

/-- The curve point with this `x` and a `y` of this parity. -/
def lift? (x : Nat) (odd : Bool) : Option Point :=
  let q := fieldSize
  let square := (x * x * x + 7) % q
  let root := powMod q 256 square ((q + 1) / 4)
  if x < q ∧ root * root % q = square then
    some ⟨x, if (root % 2 = 1) = odd then root else subMod q 0 root, 1⟩
  else none

-- ========================================================== signatures

/-- The numbers of 32 octets are those below it. -/
def wordBound : Nat := Nat.pow 256 32

/-- A signature: two numbers of 256 bits, meant as scalars, and the parity of
the nonce point's `y`. -/
structure Signature where
  r : Nat
  s : Nat
  odd : Bool
  r_lt : r < wordBound
  s_lt : s < wordBound
  deriving DecidableEq

/-- A secret scalar. -/
structure SecretKey where
  scalar : Nat
  pos : 0 < scalar
  lt : scalar < order
  deriving DecidableEq

theorem order_lt : order < wordBound := by decide

theorem mod_order_lt (n : Nat) : n % order < wordBound :=
  Nat.lt_trans (Nat.mod_lt _ (by decide)) order_lt

/-- The signature for a nonce, with `s` in the lower half of the scalars;
none if the nonce yields a zero scalar. -/
def signWithNonce? (secret hash nonce : Nat) : Option Signature := do
  let (x, y) ← affine? (multiply 256 nonce generator)
  let r := x % order
  let s := inverse order nonce * (hash + r * secret) % order
  if r = 0 ∨ s = 0 then none
  else if order < 2 * s then
    some ⟨r, order - s, y % 2 = 0, mod_order_lt x, Nat.lt_of_le_of_lt (Nat.sub_le _ _) order_lt⟩
  else some ⟨r, s, y % 2 = 1, mod_order_lt x, mod_order_lt _⟩

/-- Deterministic nonces: draws candidates from the keyed generator
state until one gives a signature. A candidate is refused with a chance
below `2 ^ -127`, so a few draws are always enough. -/
def draw (secret hash : Nat) : Nat → Octets → Octets → Option Signature
  | 0, _, _ => none
  | draws + 1, key, value =>
    let value := hmacSha256 key value
    let candidate := Octets.ofBigEndian value
    let signature? :=
      if candidate = 0 ∨ order ≤ candidate then none else signWithNonce? secret hash candidate
    match signature? with
    | some signature => some signature
    | none =>
      let key := hmacSha256 key (value ++ [0])
      draw secret hash draws key (hmacSha256 key value)

/-- The deterministic signature of a digest under a secret scalar. -/
def sign (secret : SecretKey) (digest : Digest) : Signature :=
  let hash := digest.toNat % order
  let seed := Octets.bigEndian 32 secret.scalar ++ digest.octets
  let value := List.replicate 32 1
  let key := hmacSha256 (List.replicate 32 0) (value ++ [0] ++ seed)
  let value := hmacSha256 key value
  let key := hmacSha256 key (value ++ [1] ++ seed)
  let value := hmacSha256 key value
  (draw secret.scalar hash 8 key value).getD ⟨0, 0, false, by decide, by decide⟩

/-- The scalars and the parity that a signature stands for: a high `s` is
replaced by its negative, modulo `2 ^ 256`, and the parity is flipped. -/
def Signature.lowered (g : Signature) : Nat × Nat × Bool :=
  if order < 2 * g.s then (g.r, (order + (wordBound - g.s)) % wordBound, !g.odd)
  else (g.r, g.s, g.odd)

/-- The public key under which a signature of this digest verifies. -/
def recover? (digest : Digest) (signature : Signature) : Option (Nat × Nat) := do
  let (r, s, odd) := signature.lowered
  if r = 0 ∨ order ≤ r ∨ s = 0 ∨ order ≤ s then none
  else
    let nonce ← lift? r odd
    let inv := inverse order r
    let hash := digest.toNat % order
    let u := subMod order 0 (inv * hash)
    let v := inv * s % order
    affine? (add (multiply 256 u generator) (multiply 256 v nonce))

/-- The public key of a secret scalar. -/
def SecretKey.publicKey? (secret : SecretKey) : Option (Nat × Nat) :=
  affine? (multiply 256 secret.scalar generator)

end OnceProxy.Crypto.Secp256k1
