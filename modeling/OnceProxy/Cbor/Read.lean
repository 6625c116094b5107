/-
Readers of the binary format CBOR: a reader takes an item of one
type off the front of an octet string and leaves the rest.

Readers are lenient about form and strict about type. Any width and open
lengths are read; tags in front of an item of the expected type are passed
over; an integer may be a tagged octet string of at most sixteen
significant octets; an octet string may be an array of small integers, and
a sequence may be an octet string. Reading fails on whatever else is there
instead of the expected type. The depth of arrays and maps is bounded by
the budget that readers of containers pass down.

The loops over open lengths take as fuel one more than the number of octets
left, which is enough, since each round reads at least one octet.
-/
import OnceProxy.Cbor.Header

namespace OnceProxy.Cbor

/-- A reader takes an `α` off the front. -/
abbrev Reader (α : Type) := Octets → Option (α × Octets)

/-- The deepest nesting of arrays and maps that is read. -/
def depthLimit : Nat := 256

-- ============================================================ repeating

/-- Reads exactly `n` items. -/
def readMany (item : Reader α) : Nat → Reader (List α)
  | 0, b => some ([], b)
  | n + 1, b => do
    let (a, b) ← item b
    let (as, b) ← readMany item n b
    return (a :: as, b)

/-- Whether the next head is the end of an open length; then the octets behind it. -/
def afterStop? (b : Octets) : Option Octets :=
  match Header.read b with
  | some (.stop, rest) => some rest
  | _ => none

/-- Reads items up to the end of an open length. -/
def readOpen (item : Reader α) : (fuel : Nat) → Reader (List α)
  | 0, _ => none
  | fuel + 1, b =>
    match afterStop? b with
    | some rest => some ([], rest)
    | none => do
      let (a, b) ← item b
      let (as, b) ← readOpen item fuel b
      return (a :: as, b)

/-- Reads the contents that a length announces. -/
def readContents (length : Option Nat) (item : Reader α) : Reader (List α) := fun b =>
  match length with
  | some n => readMany item n b
  | none => readOpen item (b.length + 1) b

/-- The next head that is no tag. -/
def readUntagged : (fuel : Nat) → Reader Header
  | 0, _ => none
  | fuel + 1, b => do
    let (h, rest) ← Header.read b
    match h with
    | .tag _ => readUntagged fuel rest
    | h => return (h, rest)

/-- The next head that is no tag. -/
def nextHead : Reader Header := fun b => readUntagged b.length b

-- ============================================================== strings

/-- The pieces of a string of open length; a piece may itself be open. -/
def readPieces (isKind : Header → Option (Option Nat)) : (fuel nesting : Nat) → Reader (List Octets)
  | 0, _, _ => none
  | fuel + 1, nesting, b => do
    let (h, rest) ← Header.read b
    match h, isKind h with
    | .stop, _ =>
      match nesting with
      | 0 => none
      | 1 => return ([], rest)
      | nesting + 1 => readPieces isKind fuel nesting rest
    | _, some none => readPieces isKind fuel (nesting + 1) rest
    | _, some (some n) =>
      let (piece, rest) ← take? n rest
      let (pieces, rest) ← readPieces isKind fuel nesting rest
      return (piece :: pieces, rest)
    | _, none => none

/-- The pieces of a string of the given length. -/
def readString (isKind : Header → Option (Option Nat)) (length : Option Nat) :
    Reader (List Octets) := fun b =>
  match length with
  | some n => (take? n b).map fun (piece, rest) => ([piece], rest)
  | none => readPieces isKind (b.length + 1) 1 b

/-- The length of an octet string's head. -/
def octetsLength : Header → Option (Option Nat)
  | .octets n => some n
  | _ => none

/-- The length of a text string's head. -/
def textLength : Header → Option (Option Nat)
  | .text n => some n
  | _ => none

/-- The octets of an octet string whose head has been read. -/
def readOctetsBody (length : Option Nat) : Reader Octets := fun b =>
  (readString octetsLength length b).map fun (pieces, rest) => (pieces.flatten, rest)

/-- The text of a text string whose head has been read; each piece is valid
UTF-8 on its own. -/
def readTextBody (length : Option Nat) : Reader String := fun b => do
  let (pieces, rest) ← readString textLength length b
  let texts ← pieces.mapM Octets.toText?
  return (String.join texts, rest)

/-- A text string. -/
def readText : Reader String := fun b => do
  match ← nextHead b with
  | (.text length, rest) => readTextBody length rest
  | _ => none

-- ============================================================= integers

/-- An integer given as an octet string behind a tag: leading zeros do not
count, and at most sixteen octets may follow. -/
def readBignum : Reader Nat := fun b => do
  match ← Header.read b with
  | (.octets length, rest) =>
    let (o, rest) ← readOctetsBody length rest
    let digits := Octets.trimZeros o
    if digits.length ≤ 16 then return (Octets.ofBigEndian digits, rest) else none
  | _ => none

/-- A natural number of either form, behind any number of other tags. -/
def readNaturalWith : (fuel : Nat) → Reader Nat
  | 0, _ => none
  | fuel + 1, b => do
    match ← Header.read b with
    | (.unsigned n, rest) => return (n, rest)
    | (.tag 2, rest) => readBignum rest
    | (.tag 3, _) => none
    | (.tag _, rest) => readNaturalWith fuel rest
    | _ => none

/-- A natural number below `bound`. -/
def readNatural (bound : Nat) : Reader Nat := fun b => do
  let (n, rest) ← readNaturalWith b.length b
  if n < bound then return (n, rest) else none

/-- A number of 64 bits. -/
def readUInt64 : Reader UInt64 := fun b =>
  (readNatural UInt64.size b).map fun (n, rest) => (UInt64.ofNat n, rest)

/-- An octet string, or an array of integers below 256. -/
def readOctets : Reader Octets := fun b => do
  match ← nextHead b with
  | (.octets length, rest) => readOctetsBody length rest
  | (.array length, rest) =>
    let (ns, rest) ← readContents length (readNatural 256) rest
    return (ns.map UInt8.ofNat, rest)
  | _ => none

-- =========================================================== containers

/-- A sequence of items. An empty octet string is an empty sequence; the
octets of any other are no items of the types that are read here. -/
def readSequence (item : Reader α) : Reader (List α) := fun b => do
  match ← nextHead b with
  | (.array length, rest) => readContents length item rest
  | (.octets length, rest) =>
    let (o, rest) ← readOctetsBody length rest
    if o.isEmpty then return ([], rest) else none
  | _ => none

/-- The start of a tuple of `n` fields: the octets of its first field. Fields
beyond those that are read stay unread. -/
def readTupleHead (n : Nat) (b : Octets) : Option (Bool × Octets) := do
  match ← nextHead b with
  | (.array (some m), rest) => if n ≤ m then return (false, rest) else none
  | (.array none, rest) => return (true, rest)
  | _ => none

/-- A field of a tuple: the end of an open length is no field. -/
def readTupleField (item : Reader α) (isOpen : Bool) : Reader α := fun b =>
  if isOpen && (afterStop? b).isSome then none else item b

/-- A pair. -/
def readPair (first : Reader α) (second : Reader β) : Reader (α × β) := fun b => do
  let (isOpen, b) ← readTupleHead 2 b
  let (x, b) ← readTupleField first isOpen b
  let (y, b) ← readTupleField second isOpen b
  return ((x, y), b)

/-- A triple. -/
def readTriple (first : Reader α) (second : Reader β) (third : Reader γ) :
    Reader (α × β × γ) := fun b => do
  let (isOpen, b) ← readTupleHead 3 b
  let (x, b) ← readTupleField first isOpen b
  let (y, b) ← readTupleField second isOpen b
  let (z, b) ← readTupleField third isOpen b
  return ((x, y, z), b)

-- ==================================================== items of any type

/-- Passes over one item of any type; `inside?` passes over an item one
level deeper, if the depth allows one. -/
def skipWith (inside? : Option (Octets → Option Octets)) (b : Octets) : Option Octets := do
  let deeper (length : Option Nat) (perRound : Octets → Option Octets) (b : Octets) :=
    (readContents length (fun b => (perRound b).map ((), ·)) b).map (·.2)
  match ← Header.read b with
  | (.unsigned _, rest) | (.negative _, rest) | (.float, rest) => return rest
  | (.octets length, rest) => return (← readOctetsBody length rest).2
  | (.text length, rest) => return (← readTextBody length rest).2
  | (.array length, rest) => deeper length (← inside?) rest
  | (.map length, rest) =>
    let item ← inside?
    deeper length (fun b => do item (← item b)) rest
  | (.tag n, rest) =>
    match (if n = 2 ∨ n = 3 then Header.read rest else none) with
    | some (.octets (some length), digits) =>
      if length ≤ 16 then return (← take? length digits).2 else (← inside?) rest
    | _ => (← inside?) rest
  | (.simple n, rest) => if 20 ≤ n ∧ n ≤ 23 then return rest else none
  | (.stop, _) => none

/-- Passes over one item of any type, with at most `depth` arrays, maps and
tags around its innermost item. -/
def skip : (depth : Nat) → Octets → Option Octets
  | 0 => skipWith none
  | depth + 1 => skipWith (some (skip depth))

-- =============================================================== records

/-- The key of a record's field: a closed text or octet string of at most
4096 octets. -/
def readKey : Reader Octets := fun b => do
  match ← nextHead b with
  | (.text (some n), rest) =>
    if n ≤ 4096 then
      let (key, rest) ← take? n rest
      let _ ← Octets.toText? key
      return (key, rest)
    else none
  | (.octets (some n), rest) => if n ≤ 4096 then take? n rest else none
  | _ => none

/-- Reads `n` fields, each by the step that its key selects. -/
def foldMany (field : σ → Octets → Reader σ) : Nat → σ → Reader σ
  | 0, s, b => some (s, b)
  | n + 1, s, b => do
    let (key, b) ← readKey b
    let (s, b) ← field s key b
    foldMany field n s b

/-- Reads fields up to the end of an open length. -/
def foldOpen (field : σ → Octets → Reader σ) : (fuel : Nat) → σ → Reader σ
  | 0, _, _ => none
  | fuel + 1, s, b =>
    match afterStop? b with
    | some rest => some (s, rest)
    | none => do
      let (key, b) ← readKey b
      let (s, b) ← field s key b
      foldOpen field fuel s b

/-- Reads a record: a map, folded field by field. -/
def readRecord (field : σ → Octets → Reader σ) (start : σ) : Reader σ := fun b => do
  match ← nextHead b with
  | (.map (some n), rest) => foldMany field n start rest
  | (.map none, rest) => foldOpen field (rest.length + 1) start rest
  | _ => none

/-- Reads a field that may be given once. -/
def readOnce (held : Option α) (item : Reader α) : Reader α :=
  match held with
  | some _ => fun _ => none
  | none => item

end OnceProxy.Cbor
