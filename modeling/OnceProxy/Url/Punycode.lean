/-
Punycode: the ASCII form of a label of other characters.

The ASCII characters of the label come first, then a hyphen, then the
others as increments of a counter that runs over all pairs of a character
and a position, each written as a number of variable length whose digits'
thresholds adapt to the sizes seen so far.
-/
namespace OnceProxy.Url.Punycode

/-- The adapted bias after an increment. -/
def adapt (delta count : Nat) (isFirst : Bool) : Nat :=
  let delta := if isFirst then delta / 700 else delta / 2
  let delta := delta + delta / count
  let rec shrink : (fuel : Nat) → Nat → Nat → Nat
    | 0, delta, k => k + 36 * delta / (delta + 38)
    | fuel + 1, delta, k =>
      if 455 < delta then shrink fuel (delta / 35) (k + 36) else k + 36 * delta / (delta + 38)
  shrink 64 delta 0

/-- The character of a digit below 36. -/
def digit (n : Nat) : Char := if n < 26 then Char.ofNat (97 + n) else Char.ofNat (22 + n)

/-- The value of a digit. -/
def value? (c : Char) : Option Nat :=
  if c.isLower then some (c.toNat - 97)
  else if c.isUpper then some (c.toNat - 65)
  else if c.isDigit then some (c.toNat - 22)
  else none

/-- The threshold at a position. -/
def threshold (k bias : Nat) : Nat := if k ≤ bias then 1 else if bias + 26 ≤ k then 26 else k - bias

/-- A number in digits of variable thresholds. -/
def encodeNumber (bias : Nat) : (fuel : Nat) → Nat → Nat → List Char
  | 0, _, _ => []
  | fuel + 1, q, k =>
    let t := threshold k bias
    if q < t then [digit q]
    else digit (t + (q - t) % (36 - t)) :: encodeNumber bias fuel ((q - t) / (36 - t)) (k + 36)

/-- The increments for all occurrences of one character. -/
def encodeOccurrences (n firstCount : Nat) :
    List Char → (delta bias handled : Nat) → List Char × Nat × Nat × Nat
  | [], delta, bias, handled => ([], delta, bias, handled)
  | c :: cs, delta, bias, handled =>
    if c.toNat < n then encodeOccurrences n firstCount cs (delta + 1) bias handled
    else if c.toNat = n then
      let out := encodeNumber bias 64 delta 36
      let bias := adapt delta (handled + 1) (handled = firstCount)
      let (more, rest) := encodeOccurrences n firstCount cs 0 bias (handled + 1)
      (out ++ more, rest)
    else encodeOccurrences n firstCount cs delta bias handled

/-- The increments for all characters from `n` on. -/
def encodeFrom (label : List Char) (firstCount : Nat) :
    (fuel : Nat) → (n delta bias handled : Nat) → List Char
  | 0, _, _, _, _ => []
  | fuel + 1, n, delta, bias, handled =>
    match ((label.map Char.toNat).filter (n ≤ ·)).min? with
    | none => []
    | some m =>
      let delta := delta + (m - n) * (handled + 1)
      let (out, delta, bias, handled) := encodeOccurrences m firstCount label delta bias handled
      out ++ encodeFrom label firstCount fuel (m + 1) (delta + 1) bias handled

/-- The ASCII form of a label. -/
def encode (label : List Char) : List Char :=
  let plain := label.filter fun c => c.toNat < 128
  plain ++ (if plain.isEmpty then [] else ['-']) ++
    encodeFrom label plain.length (label.length + 1) 128 0 72 plain.length

/-- The next number, and the digits behind it. -/
def decodeNumber (bias : Nat) : List Char → (k weight sum : Nat) → Option (Nat × List Char)
  | [], _, _, _ => none
  | c :: cs, k, weight, sum => do
    let d ← value? c
    let sum := sum + d * weight
    let t := threshold k bias
    if d < t then return (sum, cs) else decodeNumber bias cs (k + 36) (weight * (36 - t)) sum

/-- Inserts the characters that the digits announce. -/
def decodeFrom : (fuel : Nat) → List Char → (n i bias : Nat) → List Nat → Option (List Nat)
  | 0, _, _, _, _, out => some out
  | fuel + 1, cs, n, i, bias, out =>
    match cs with
    | [] => some out
    | cs => do
      let (delta, cs) ← decodeNumber bias cs 36 1 0
      let count := out.length + 1
      let bias := adapt delta count (i = 0 && n = 128)
      let n := n + (i + delta) / count
      let i := (i + delta) % count
      if 0x10FFFF < n then none
      else decodeFrom fuel cs n (i + 1) bias (out.take i ++ n :: out.drop i)

/-- The code points of a label in ASCII form. -/
def decode (cs : List Char) : Option (List Nat) :=
  let backwards := cs.reverse
  let tail := (backwards.takeWhile (· ≠ '-')).reverse
  let plain := ((backwards.dropWhile (· ≠ '-')).drop 1).reverse
  let digits := if backwards.contains '-' then tail else cs
  decodeFrom (cs.length + 1) digits 128 0 72 (plain.map Char.toNat)

end OnceProxy.Url.Punycode
