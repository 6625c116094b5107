/-
Hosts of URLs: addresses of version 4 and 6, and domains.

The host of a URL whose scheme is special is percent-decoded and brought
into its ASCII form; if its last label is a number, it is an address of
version 4, whose parts may be decimal, octal or hexadecimal and whose last
part fills the octets that are left. Other schemes keep their host as it
is. An address of version 6 stands in brackets.
-/
import OnceProxy.Octets
import OnceProxy.Text.Hex
import OnceProxy.Text.Pieces
import OnceProxy.Url.Punycode

namespace OnceProxy.Url

/-- Why a text is no URL. -/
inductive UrlError where
  | relative
  | emptyHost
  | badPort
  | badIpv4
  | badIpv6
  | badDomain
  | badDomainChar
  deriving DecidableEq, Repr

/-- The words for a fault of a URL. -/
def UrlError.message : UrlError → String
  | .relative => "relative URL without a base"
  | .emptyHost => "empty host"
  | .badPort => "invalid port number"
  | .badIpv4 => "invalid IPv4 address"
  | .badIpv6 => "invalid IPv6 address"
  | .badDomain => "invalid international domain name"
  | .badDomainChar => "invalid domain character"

-- ========================================================== version 4

/-- A part of an address: the marker `0x` or `0` gives its base. None if the
digits do not fit the base. -/
def ipv4Part? (cs : List Char) : Option Nat :=
  let digits (base : Nat) (cs : List Char) : Option Nat :=
    cs.foldlM (fun n c => do
      let d ← Text.Hex.value? c
      if d < base then some (n * base + d) else none) 0
  match cs with
  | [] => none
  | '0' :: 'x' :: rest | '0' :: 'X' :: rest => digits 16 rest
  | '0' :: d :: rest => digits 8 (d :: rest)
  | cs => digits 10 cs

/-- The labels of a domain, without the empty one behind a last dot. -/
def labels (cs : List Char) : List (List Char) :=
  let ls := Text.pieces '.' cs
  if 1 < ls.length ∧ ls.getLast? = some [] then ls.dropLast else ls

/-- Whether a domain has to be an address of version 4. -/
def endsInNumber (cs : List Char) : Bool :=
  match (labels cs).getLast? with
  | none | some [] => false
  | some last => last.all Char.isDigit || (ipv4Part? last).isSome

/-- Reads an address of version 4. -/
def parseIpv4 (cs : List Char) : Except UrlError Nat :=
  let parts := labels cs
  match parts.mapM ipv4Part? with
  | none => .error .badIpv4
  | some ns =>
    match ns.getLast? with
    | none => .error .badIpv4
    | some last =>
      let front := ns.dropLast
      if 4 < ns.length ∨ front.any (255 < ·) ∨ Nat.pow 256 (4 - front.length) ≤ last then
        .error .badIpv4
      else .ok ((front.zipIdx.map fun (n, i) => n * Nat.pow 256 (3 - i)).foldl (· + ·) last)

/-- The four numbers between dots. -/
def renderIpv4 (n : Nat) : String :=
  ".".intercalate ([n / 0x1000000 % 256, n / 0x10000 % 256, n / 0x100 % 256, n % 256].map toString)

-- ========================================================== version 6

/-- The four numbers at the end of an address of version 6, as two groups. -/
def mixedTail? (cs : List Char) : Option (List Nat) := do
  let parts := Text.pieces '.' cs
  let ns ← parts.mapM fun p =>
    if p.isEmpty ∨ 3 < p.length ∨ (p.head? = some '0' ∧ 1 < p.length) then none
    else p.foldlM (fun n c => if c.isDigit then some (n * 10 + (c.toNat - 48)) else none) 0
  match ns with
  | [a, b, c, d] =>
    if a < 256 ∧ b < 256 ∧ c < 256 ∧ d < 256 then some [a * 256 + b, c * 256 + d] else none
  | _ => none

/-- Groups between colons; the last two may be written as version 4. -/
def groups? (cs : List Char) : Option (List Nat) :=
  if cs.isEmpty then some []
  else
    let parts := Text.pieces ':' cs
    let group? (p : List Char) : Option Nat :=
      if p.isEmpty ∨ 4 < p.length then none
      else p.foldlM (fun n c => (Text.Hex.value? c).map (n * 16 + ·)) 0
    match parts.getLast? with
    | none => none
    | some last =>
      if last.contains '.' then do
        return (← parts.dropLast.mapM group?) ++ (← mixedTail? last)
      else parts.mapM group?

/-- The characters before and behind the first double colon. -/
def splitDouble : List Char → Option (List Char × List Char)
  | ':' :: ':' :: rest => some ([], rest)
  | c :: rest => (splitDouble rest).map fun (front, back) => (c :: front, back)
  | [] => none

/-- Reads the inside of the brackets. -/
def parseIpv6 (cs : List Char) : Except UrlError (List Nat) :=
  let result : Option (List Nat) :=
    match splitDouble cs with
    | none => do
      let gs ← groups? cs
      if gs.length = 8 then some gs else none
    | some (front, back) => do
      let f ← if front.contains '.' then none else groups? front
      let b ← groups? back
      if f.length + b.length < 8 then
        some (f ++ List.replicate (8 - f.length - b.length) 0 ++ b)
      else none
  match result with
  | some gs => .ok gs
  | none => .error .badIpv6

/-- The longest run of at least two zero groups: its start and its length. -/
def longestZeros (gs : List Nat) : Nat × Nat :=
  let runs := (List.range gs.length).map fun i => (i, ((gs.drop i).takeWhile (· = 0)).length)
  runs.foldl (fun best run => if best.2 < run.2 ∧ 1 < run.2 then run else best) (0, 0)

/-- Groups in lower-case digits, the longest run of zeros left out. -/
def renderIpv6 (gs : List Nat) : String :=
  let hex (n : Nat) : String := String.ofList (Nat.toDigits 16 n)
  let (start, size) := longestZeros gs
  if size = 0 then ":".intercalate (gs.map hex)
  else ":".intercalate ((gs.take start).map hex) ++ "::" ++
    ":".intercalate ((gs.drop (start + size)).map hex)

-- ============================================================= domains

/-- Percent-decoding: two digits behind a percent sign make an octet, and
anything else stands for itself. -/
def percentDecode : Octets → Octets
  | 37 :: h :: l :: rest =>
    match Text.Hex.value? (Char.ofNat h.toNat), Text.Hex.value? (Char.ofNat l.toNat) with
    | some hi, some lo => UInt8.ofNat (hi * 16 + lo) :: percentDecode rest
    | _, _ => 37 :: percentDecode (h :: l :: rest)
  | o :: rest => o :: percentDecode rest
  | [] => []

/-- The ASCII characters that no domain may hold. -/
def isForbiddenInDomain (c : Char) : Bool :=
  c.toNat ≤ 32 || c.toNat = 127 || "%#/:<>?@[\\]^|".toList.contains c

/-- The ASCII characters that no host of another scheme may hold. -/
def isForbiddenInHost (c : Char) : Bool :=
  c.toNat = 0 || "\t\n\r #/:<>?@[\\]^|".toList.contains c

/-- A character's form in a domain: letters in lower case, wide forms as
plain ones, and invisible ones dropped. None for characters that no domain
may hold, controls and unassigned or private ones among them. -/
def mapDomainChar (c : Char) : Option (List Char) :=
  let n := c.toNat
  if n < 128 then some [c.toLower]
  else if n < 0xA0 ∨ n = 0xFFFD ∨ (0xE000 ≤ n ∧ n ≤ 0xF8FF) ∨ 0xF0000 ≤ n ∨
      (0x200E ≤ n ∧ n ≤ 0x200F) ∨ (0x2028 ≤ n ∧ n ≤ 0x202E) ∨ (0xFFF0 ≤ n ∧ n ≤ 0xFFFF) ∨
      (0x2066 ≤ n ∧ n ≤ 0x206F) then none
  else if n = 0xAD ∨ n = 0x200B ∨ n = 0x2060 ∨ n = 0xFEFF ∨ (0xFE00 ≤ n ∧ n ≤ 0xFE0F) then some []
  else if n = 0x3002 ∨ n = 0xFF61 then some ['.']
  else if n = 0xA0 ∨ n = 0x3000 ∨ (0x2000 ≤ n ∧ n ≤ 0x200A) ∨ n = 0x202F then some [' ']
  else if 0xFF01 ≤ n ∧ n ≤ 0xFF5E then some [(Char.ofNat (n - 0xFEE0)).toLower]
  else if (0xC0 ≤ n ∧ n ≤ 0xDE ∧ n ≠ 0xD7) ∨ (0x391 ≤ n ∧ n ≤ 0x3A9) ∨ (0x410 ≤ n ∧ n ≤ 0x42F) then
    some [Char.ofNat (n + 32)]
  else if 0x400 ≤ n ∧ n ≤ 0x40F then some [Char.ofNat (n + 80)]
  else some [c]

/-- The marker in front of a label in ASCII form. -/
def asciiMarker : List Char := ['x', 'n', '-', '-']

/-- The ASCII form of a label. A label that has the marker already must
decode to more than ASCII. -/
def labelToAscii (cs : List Char) : Option (List Char) :=
  if cs.take 4 = asciiMarker then do
    let points ← Punycode.decode (cs.drop 4)
    if points.isEmpty ∨ points.all (· < 128) then none
    else if cs.all (·.toNat < 128) then some cs else none
  else if cs.all (·.toNat < 128) then some cs
  else some (asciiMarker ++ Punycode.encode cs)

/-- The ASCII form of a domain. -/
def domainToAscii (b : Octets) : Except UrlError (List Char) :=
  let result : Option (List Char) := do
    let text ← Octets.toText? b
    let mapped := (← text.toList.mapM mapDomainChar).flatten
    let ls ← (Text.pieces '.' mapped).mapM labelToAscii
    let cs := (".".intercalate (ls.map String.ofList)).toList
    if cs.any isForbiddenInDomain then none else some cs
  match result with
  | some cs => .ok cs
  | none => .error .badDomain

-- =============================================================== hosts

/-- Percent-encoding of the octets of characters in a set, in capital digits. -/
def percentEncode (inSet : Char → Bool) (cs : List Char) : List Char :=
  cs.flatMap fun c =>
    if inSet c || 127 ≤ c.toNat then
      (Octets.ofText (String.singleton c)).flatMap fun o =>
        ['%', (Text.Hex.digit (o.toNat / 16)).toUpper, (Text.Hex.digit (o.toNat % 16)).toUpper]
    else [c]

/-- The characters below space. -/
def isControl (c : Char) : Bool := c.toNat < 32

/-- The written form of an address of version 6 between brackets. -/
def bracketed (cs : List Char) : Except UrlError String := do
  if cs.getLast? ≠ some ']' then throw .badIpv6
  let gs ← parseIpv6 (cs.drop 1).dropLast
  return "[" ++ renderIpv6 gs ++ "]"

/-- The host of a URL with a special scheme, in its written form. -/
def parseHost (cs : List Char) : Except UrlError String := do
  if cs.head? = some '[' then bracketed cs
  else
    let domain ← domainToAscii (percentDecode (Octets.ofText (String.ofList cs)))
    if domain.isEmpty then throw .emptyHost
    else if endsInNumber domain then return renderIpv4 (← parseIpv4 domain)
    else return String.ofList domain

/-- The host of a URL with another scheme, in its written form. -/
def parseOpaqueHost (cs : List Char) : Except UrlError String := do
  if cs.head? = some '[' then bracketed cs
  else if cs.any isForbiddenInHost then throw .badDomainChar
  else return String.ofList (percentEncode isControl cs)

end OnceProxy.Url
