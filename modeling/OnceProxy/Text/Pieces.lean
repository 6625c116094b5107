/-
Cutting a text at a separator character.

`pieces` keeps every piece, also the empty ones, so joining its result with
the separator gives the text back.
-/
namespace OnceProxy.Text

/-- The pieces between separators; one piece more than there are separators. -/
def pieces (separator : Char) : List Char → List (List Char)
  | [] => [[]]
  | c :: cs =>
    if c = separator then [] :: pieces separator cs
    else
      match pieces separator cs with
      | piece :: rest => (c :: piece) :: rest
      | [] => [[c]]

/-- The characters before the first that fails the test, and those from it on. -/
def spanChars (pass : Char → Bool) (cs : List Char) : List Char × List Char :=
  (cs.takeWhile pass, cs.dropWhile pass)

/-- Drops the characters that pass at both ends. -/
def trimChars (pass : Char → Bool) (cs : List Char) : List Char :=
  ((cs.dropWhile pass).reverse.dropWhile pass).reverse

/-- The characters of the property White_Space. -/
def isWhiteSpace (c : Char) : Bool :=
  let n := c.toNat
  (9 ≤ n && n ≤ 13) || n = 32 || n = 0x85 || n = 0xA0 || n = 0x1680 ||
    (0x2000 ≤ n && n ≤ 0x200A) || n = 0x2028 || n = 0x2029 || n = 0x202F || n = 0x205F ||
    n = 0x3000

/-- Drops white space at both ends. -/
def trim (cs : List Char) : List Char := trimChars isWhiteSpace cs

end OnceProxy.Text
