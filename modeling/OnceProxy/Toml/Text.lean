/-
Strings, keys, blanks and comments of a TOML document.

A parser takes the front of a list of characters and leaves the rest.
Repetitions that do not follow the list itself take its length as fuel,
which is enough, since each round takes at least one character.
-/
import OnceProxy.Text.Hex

namespace OnceProxy.Toml

/-- A parser takes an `α` off the front. -/
abbrev Parser (α : Type) := List Char → Option (α × List Char)

-- ============================================================== blanks

/-- Space or tab. -/
def isBlank (c : Char) : Bool := c = ' ' || c = '\t'

/-- Drops blanks. -/
def skipBlanks (cs : List Char) : List Char := cs.dropWhile isBlank

/-- Drops one line end, if one is there. -/
def newline? : List Char → Option (List Char)
  | '\n' :: rest => some rest
  | '\r' :: '\n' :: rest => some rest
  | _ => none

/-- A character that may stand in a comment: tab, or anything but control
characters. -/
def isText (c : Char) : Bool := c = '\t' || (32 ≤ c.toNat && c.toNat ≠ 127)

/-- Drops a comment, if one is there; its line end stays. -/
def skipComment : List Char → List Char
  | '#' :: rest => rest.dropWhile isText
  | cs => cs

/-- Drops blanks and line ends. -/
def skipBlankLines : (fuel : Nat) → List Char → List Char
  | 0, cs => cs
  | fuel + 1, cs =>
    let cs := skipBlanks cs
    match newline? cs with
    | some rest => skipBlankLines fuel rest
    | none => cs

/-- Drops blanks, line ends and comments; a comment needs its line end. -/
def skipFiller : (fuel : Nat) → List Char → Option (List Char)
  | 0, cs => some cs
  | fuel + 1, cs =>
    let cs := skipBlanks cs
    match cs with
    | '#' :: _ => do skipFiller fuel (← newline? (skipComment cs))
    | _ =>
      match newline? cs with
      | some rest => skipFiller fuel rest
      | none => some cs

-- ============================================================= escapes

/-- A hexadecimal number of exactly `n` digits. -/
def hexNumber : (n : Nat) → Parser Nat
  | 0, cs => some (0, cs)
  | n + 1, cs => do
    let (high, cs) ← hexNumber n cs
    match cs with
    | c :: rest => return (high * 16 + (← Text.Hex.value? c), rest)
    | [] => none

/-- The character of a scalar value. -/
def scalar? (n : Nat) : Option Char :=
  if n < 0xD800 ∨ (0xDFFF < n ∧ n < 0x110000) then some (Char.ofNat n) else none

/-- The character behind a backslash. -/
def escape : Parser Char
  | 'b' :: rest => some (Char.ofNat 8, rest)
  | 't' :: rest => some ('\t', rest)
  | 'n' :: rest => some ('\n', rest)
  | 'f' :: rest => some (Char.ofNat 12, rest)
  | 'r' :: rest => some ('\r', rest)
  | '"' :: rest => some ('"', rest)
  | '\\' :: rest => some ('\\', rest)
  | 'u' :: rest => do
    let (n, rest) ← hexNumber 4 rest
    return (← scalar? n, rest)
  | 'U' :: rest => do
    let (n, rest) ← hexNumber 8 rest
    return (← scalar? n, rest)
  | _ => none

-- ============================================================= strings

/-- The rest of a string of one line between double quotes. -/
def basicBody : (fuel : Nat) → Parser (List Char)
  | 0, _ => none
  | fuel + 1, cs =>
    match cs with
    | '"' :: rest => some ([], rest)
    | '\\' :: rest => do
      let (c, rest) ← escape rest
      let (body, rest) ← basicBody fuel rest
      return (c :: body, rest)
    | c :: rest =>
      if isText c then do
        let (body, rest) ← basicBody fuel rest
        return (c :: body, rest)
      else none
    | [] => none

/-- The rest of a string of one line between single quotes. -/
def literalBody : Parser (List Char)
  | '\'' :: rest => some ([], rest)
  | c :: rest =>
    if isText c then do
      let (body, rest) ← literalBody rest
      return (c :: body, rest)
    else none
  | [] => none

/-- The end of a string of several lines: three quotes, in front of which up
to two belong to the string. -/
def closing? (quote : Char) (cs : List Char) : Option (List Char × List Char) :=
  let quotes := (cs.takeWhile (· = quote)).length
  if quotes < 3 then none
  else
    let inside := min (quotes - 3) 2
    some (List.replicate inside quote, cs.drop (inside + 3))

/-- Behind a backslash: blanks and a line end, and the blank lines after it. -/
def foldedLines? (cs : List Char) : Option (List Char) :=
  (newline? (skipBlanks cs)).map fun rest => skipBlankLines (rest.length + 1) rest

/-- The rest of a string of several lines between double quotes; a line end
counts as one line feed. -/
def basicLines : (fuel : Nat) → Parser (List Char)
  | 0, _ => none
  | fuel + 1, cs =>
    match closing? '"' cs with
    | some (inside, rest) => some (inside, rest)
    | none =>
      match newline? cs with
      | some rest => do
        let (body, rest) ← basicLines fuel rest
        return ('\n' :: body, rest)
      | none =>
        match cs with
        | '\\' :: rest =>
          match foldedLines? rest with
          | some rest => basicLines fuel rest
          | none => do
            let (c, rest) ← escape rest
            let (body, rest) ← basicLines fuel rest
            return (c :: body, rest)
        | c :: rest =>
          if isText c then do
            let (body, rest) ← basicLines fuel rest
            return (c :: body, rest)
          else none
        | [] => none

/-- The rest of a string of several lines between single quotes. -/
def literalLines : (fuel : Nat) → Parser (List Char)
  | 0, _ => none
  | fuel + 1, cs =>
    match closing? '\'' cs with
    | some (inside, rest) => some (inside, rest)
    | none =>
      match newline? cs with
      | some rest => do
        let (body, rest) ← literalLines fuel rest
        return ('\n' :: body, rest)
      | none =>
        match cs with
        | c :: rest =>
          if isText c then do
            let (body, rest) ← literalLines fuel rest
            return (c :: body, rest)
          else none
        | [] => none

/-- A string of one line. -/
def lineString : Parser String
  | '"' :: rest => (basicBody (rest.length + 1) rest).map fun (b, rest) => (String.ofList b, rest)
  | '\'' :: rest => (literalBody rest).map fun (b, rest) => (String.ofList b, rest)
  | _ => none

/-- A string of either kind; a line end right behind three quotes does not
count. -/
def string : Parser String
  | '"' :: '"' :: '"' :: rest =>
    let rest := (newline? rest).getD rest
    (basicLines (rest.length + 1) rest).map fun (b, rest) => (String.ofList b, rest)
  | '\'' :: '\'' :: '\'' :: rest =>
    let rest := (newline? rest).getD rest
    (literalLines (rest.length + 1) rest).map fun (b, rest) => (String.ofList b, rest)
  | cs => lineString cs

-- ================================================================ keys

/-- Letters, digits, underscore and hyphen. -/
def isBareKeyChar (c : Char) : Bool := c.isAlphanum || c = '_' || c = '-'

/-- One part of a key. -/
def keyPart (cs : List Char) : Option (String × List Char) :=
  match cs with
  | '"' :: _ | '\'' :: _ => lineString cs
  | _ =>
    let bare := cs.takeWhile isBareKeyChar
    if bare.isEmpty then none else some (String.ofList bare, cs.dropWhile isBareKeyChar)

/-- The parts of a key, with blanks around them. -/
def keyParts : (fuel : Nat) → Parser (List String)
  | 0, _ => none
  | fuel + 1, cs => do
    let (part, rest) ← keyPart (skipBlanks cs)
    match skipBlanks rest with
    | '.' :: rest =>
      let (parts, rest) ← keyParts fuel rest
      return (part :: parts, rest)
    | rest => return ([part], rest)

/-- The deepest nesting of values, and the longest key, that is read, plus one. -/
def nestingLimit : Nat := 80

/-- A key. -/
def key : Parser (List String) := fun cs => do
  let (parts, rest) ← keyParts (cs.length + 1) cs
  if parts.length < nestingLimit then return (parts, rest) else none

end OnceProxy.Toml
