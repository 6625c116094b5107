/-
Socket addresses: an internet address of version 4, or one of version 6 in
brackets, and a port.

The four numbers of version 4 have at most three digits and no leading
zeros. The groups of version 6 have at most four digits; one double colon
stands for at least one group of zeros, and the last two groups may be
written as version 4. The port may have leading zeros.
-/
import OnceProxy.Text.Hex

namespace OnceProxy.Net

/-- An internet address: four numbers below 256, or eight below 2^16. -/
inductive IpAddress where
  | v4 (octets : List Nat)
  | v6 (groups : List Nat)
  deriving DecidableEq, Repr

/-- An address and a port. -/
structure SocketAddress where
  ip : IpAddress
  port : Nat
  deriving DecidableEq, Repr

namespace SocketAddress

-- ============================================================= numbers

/-- A number of one to `most` digits, up to `greatest`. -/
def number (base most greatest : Nat) (cs : List Char) : Option (Nat × List Char) :=
  let isDigit (c : Char) := (Text.Hex.value? c).any (· < base)
  let digits := (cs.takeWhile isDigit).take most
  let n := digits.foldl (fun n c => n * base + (Text.Hex.value? c).getD 0) 0
  if digits.isEmpty ∨ greatest < n then none else some (n, cs.drop digits.length)

/-- Drops one character. -/
def expect (c : Char) : List Char → Option (List Char)
  | d :: rest => if c = d then some rest else none
  | [] => none

/-- A number below 256 without leading zero. -/
def octet (cs : List Char) : Option (Nat × List Char) := do
  let (n, rest) ← number 10 3 255 cs
  let size := cs.length - rest.length
  if cs.head? = some '0' ∧ 1 < size then none
  else if rest.head?.any Char.isDigit then none
  else return (n, rest)

/-- Four numbers between dots. -/
def ipv4 (cs : List Char) : Option (List Nat × List Char) := do
  let (a, cs) ← octet cs
  let (b, cs) ← octet (← expect '.' cs)
  let (c, cs) ← octet (← expect '.' cs)
  let (d, cs) ← octet (← expect '.' cs)
  return ([a, b, c, d], cs)

/-- Up to `limit` groups between colons: the groups, whether they end in four
numbers of version 4, and the characters behind them. -/
def groups : (limit : Nat) → (isFirst : Bool) → List Char → List Nat × Bool × List Char
  | 0, _, cs => ([], false, cs)
  | limit + 1, isFirst, cs =>
    match (if isFirst then some cs else expect ':' cs) with
    | none => ([], false, cs)
    | some inside =>
      match (if limit = 0 then none else ipv4 inside) with
      | some ([a, b, c, d], rest) => ([a * 256 + b, c * 256 + d], true, rest)
      | _ =>
        match number 16 4 0xFFFF inside with
        | none => ([], false, cs)
        | some (n, rest) =>
          let (ns, mixed, rest) := groups limit false rest
          (n :: ns, mixed, rest)

/-- Eight groups, of which a double colon may leave out one or more. -/
def ipv6 (cs : List Char) : Option (List Nat × List Char) := do
  let (front, mixed, rest) := groups 8 true cs
  if front.length = 8 then return (front, rest)
  else if mixed then none
  else
    let rest ← expect ':' (← expect ':' rest)
    let (back, _, rest) := groups (7 - front.length) true rest
    return (front ++ List.replicate (8 - front.length - back.length) 0 ++ back, rest)

/-- The zone of an address of version 6, if one is there. -/
def zone (cs : List Char) : List Char :=
  match cs with
  | '%' :: rest =>
    match number 10 rest.length 0xFFFFFFFF rest with
    | some (_, rest) => rest
    | none => cs
  | _ => cs

/-- A port behind a colon, up to the end. -/
def portEnd (cs : List Char) : Option Nat := do
  let cs ← expect ':' cs
  let (n, rest) ← number 10 cs.length 0xFFFF cs
  if rest.isEmpty then return n else none

/-- Reads a socket address. -/
def parse? (s : String) : Option SocketAddress :=
  match s.toList with
  | '[' :: cs => do
    let (gs, cs) ← ipv6 cs
    return ⟨.v6 gs, ← portEnd (← expect ']' (zone cs))⟩
  | cs => do
    let (os, cs) ← ipv4 cs
    return ⟨.v4 os, ← portEnd cs⟩

-- ================================================================ places

/-- Whether an address belongs to this machine alone, or stands for all of
its addresses. -/
def isLocal (a : SocketAddress) : Bool :=
  match a.ip with
  | .v4 octets => octets.head? = some 127 || octets.all (· = 0)
  | .v6 groups => groups.dropLast.all (· = 0) && groups.getLast?.any (· ≤ 1)

end SocketAddress

end OnceProxy.Net
