/-
Numbers and dates of a TOML document.

Integers are 64-bit, in four bases; digits may be grouped by single
underscores. Floats are read only as far as their form and whether they are
too large matter; so are dates and times.
-/
import OnceProxy.Toml.Text

namespace OnceProxy.Toml

-- ============================================================== digits

/-- Digits of a base, one at least, with single underscores between them. -/
def digitGroup (value? : Char → Option Nat) : Parser (List Nat)
  | c :: '_' :: d :: rest => do
    let n ← value? c
    match value? d with
    | some _ => (digitGroup value? (d :: rest)).map fun (ns, rest) => (n :: ns, rest)
    | none => none
  | c :: rest => do
    let n ← value? c
    match digitGroup value? rest with
    | some (ns, rest) => return (n :: ns, rest)
    | none => if rest.head?.any (· = '_') then none else return ([n], rest)
  | [] => none

/-- The value of a digit below a base of at most 16. -/
def digitBelow (base : Nat) (c : Char) : Option Nat := do
  let n ← Text.Hex.value? c
  if n < base then some n else none

/-- The number that digits spell in a base. -/
def ofDigits (base : Nat) (ns : List Nat) : Nat := ns.foldl (fun n d => n * base + d) 0

/-- A sign: whether it is a minus, and the characters behind it. -/
def sign : List Char → Bool × List Char
  | '+' :: rest => (false, rest)
  | '-' :: rest => (true, rest)
  | cs => (false, cs)

/-- Decimal digits of a number without leading zero. -/
def wholeDigits : Parser (List Nat)
  | '0' :: rest => some ([0], rest)
  | cs => digitGroup (digitBelow 10) cs

-- ============================================================ integers

/-- The smallest and the greatest integer, the latter plus one. -/
def integerBound : Nat := UInt64.size / 2

/-- An integer of some base behind its marker. -/
def basedInteger (base : Nat) (cs : List Char) : Option (Int × List Char) := do
  let (ns, rest) ← digitGroup (digitBelow base) cs
  let n := ofDigits base ns
  if n < integerBound then return (n, rest) else none

/-- An integer. -/
def integer : Parser Int
  | '0' :: 'x' :: rest => basedInteger 16 rest
  | '0' :: 'o' :: rest => basedInteger 8 rest
  | '0' :: 'b' :: rest => basedInteger 2 rest
  | cs => do
    let (negative, cs) := sign cs
    let (ns, rest) ← wholeDigits cs
    let n := ofDigits 10 ns
    if negative then
      if n ≤ integerBound then return (-(n : Int), rest) else none
    else if n < integerBound then return ((n : Int), rest) else none

-- ============================================================== floats

/-- Whether `digits * 10 ^ exponent` rounds to infinity: it does from the
middle between the greatest double and the next power of two on. -/
def isTooLarge (digits : Nat) (exponent : Int) : Bool :=
  let size : Int := (Nat.toDigits 10 digits).length
  if digits = 0 ∨ size + exponent < 300 then false
  else if 320 < size + exponent then true
  else
    let bound := Nat.pow 2 1024 - Nat.pow 2 970
    if 0 ≤ exponent then bound ≤ digits * Nat.pow 10 exponent.toNat
    else bound * Nat.pow 10 (-exponent).toNat ≤ digits

/-- The exponent of a float. -/
def exponentPart : Parser Int
  | c :: rest =>
    if c = 'e' ∨ c = 'E' then do
      let (negative, rest) := sign rest
      let (ns, rest) ← digitGroup (digitBelow 10) rest
      let n : Int := ofDigits 10 ns
      return (if negative then -n else n, rest)
    else none
  | [] => none

/-- A float; one that rounds up to infinity is none. -/
def float (cs : List Char) : Option (List Char) :=
  let (negative, cs) := sign cs
  match cs with
  | 'i' :: 'n' :: 'f' :: rest => some rest
  | 'n' :: 'a' :: 'n' :: rest => some rest
  | _ => do
    let (whole, rest) ← wholeDigits cs
    let (fraction, exponent, rest) ←
      match rest with
      | '.' :: rest => do
        let (fraction, rest) ← digitGroup (digitBelow 10) rest
        match rest with
        | 'e' :: _ | 'E' :: _ =>
          let (e, rest) ← exponentPart rest
          pure (fraction, e, rest)
        | _ => pure (fraction, (0 : Int), rest)
      | _ => do
        let (e, rest) ← exponentPart rest
        pure ([], e, rest)
    if !negative && isTooLarge (ofDigits 10 (whole ++ fraction)) (exponent - fraction.length) then
      none
    else return rest

-- =============================================================== dates

/-- A number of exactly `n` decimal digits. -/
def fixedDigits : (n : Nat) → Parser Nat
  | 0, cs => some (0, cs)
  | n + 1, cs => do
    let (high, cs) ← fixedDigits n cs
    match cs with
    | c :: rest => return (high * 10 + (← digitBelow 10 c), rest)
    | [] => none

/-- A number of two digits from `low` to `high`. -/
def twoDigits (low high : Nat) : Parser Nat := fun cs => do
  let (n, rest) ← fixedDigits 2 cs
  if low ≤ n ∧ n ≤ high then return (n, rest) else none

/-- Drops one character. -/
def expect (c : Char) : List Char → Option (List Char)
  | d :: rest => if c = d then some rest else none
  | [] => none

/-- The days of a month. -/
def daysIn (year month : Nat) : Nat :=
  if month = 2 then
    if year % 4 = 0 ∧ (year % 100 ≠ 0 ∨ year % 400 = 0) then 29 else 28
  else if [4, 6, 9, 11].contains month then 30 else 31

/-- A day of the calendar. -/
def date (cs : List Char) : Option (List Char) := do
  let (year, cs) ← fixedDigits 4 cs
  let (month, cs) ← twoDigits 1 12 (← expect '-' cs)
  let (_, cs) ← twoDigits 1 (daysIn year month) (← expect '-' cs)
  return cs

/-- A time of day. -/
def time (cs : List Char) : Option (List Char) := do
  let (_, cs) ← twoDigits 0 23 cs
  let (_, cs) ← twoDigits 0 59 (← expect ':' cs)
  let (_, cs) ← twoDigits 0 60 (← expect ':' cs)
  match cs with
  | '.' :: rest =>
    if rest.head?.any Char.isDigit then return rest.dropWhile Char.isDigit else none
  | _ => return cs

/-- An offset from universal time, if one is there. -/
def offset (cs : List Char) : Option (List Char) :=
  match cs with
  | 'Z' :: rest | 'z' :: rest => some rest
  | '+' :: rest | '-' :: rest => do
    let (_, rest) ← twoDigits 0 23 rest
    let (_, rest) ← twoDigits 0 59 (← expect ':' rest)
    return rest
  | _ => some cs

/-- Whether the characters can only be a date or a time. -/
def startsMoment (cs : List Char) : Bool :=
  let digits := (cs.takeWhile Char.isDigit).length
  let behind := (cs.dropWhile Char.isDigit).head?
  (digits = 4 && behind = some '-') || (digits = 2 && behind = some ':')

/-- A date, a time, or both. -/
def moment (cs : List Char) : Option (List Char) := do
  if (cs.takeWhile Char.isDigit).length = 2 then time cs
  else
    let rest ← date cs
    let separated :=
      match rest with
      | 'T' :: more | 't' :: more | ' ' :: more => if startsMoment more then some more else none
      | _ => none
    match separated with
    | some more => offset (← time more)
    | none => return rest

end OnceProxy.Toml
