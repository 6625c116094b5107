/-
Decimal text of natural numbers.

Written without leading zeros; read with any, and with an optional plus
sign in front, up to a bound.
-/
namespace OnceProxy.Text.Decimal

/-- The digits of a number. -/
def render (n : Nat) : String := String.ofList (Nat.toDigits 10 n)

/-- The value of a decimal digit. -/
def value? (c : Char) : Option Nat :=
  if c.isDigit then some (c.toNat - 48) else none

/-- The number spelled by digits, at least one of them. -/
def ofDigits? (cs : List Char) : Option Nat :=
  if cs.isEmpty then none
  else cs.foldlM (fun n c => (value? c).map (n * 10 + ·)) 0

/-- The number below `bound` spelled by digits behind an optional plus sign. -/
def parseBelow (bound : Nat) (cs : List Char) : Option Nat := do
  let digits := match cs with
    | '+' :: rest => rest
    | cs => cs
  let n ← ofDigits? digits
  if n < bound then some n else none

/-- A 64-bit number. -/
def parseUInt64 (s : String) : Option UInt64 :=
  (parseBelow UInt64.size s.toList).map UInt64.ofNat

end OnceProxy.Text.Decimal
