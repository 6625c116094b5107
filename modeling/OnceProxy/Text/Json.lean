/-
The text form of JSON strings.

Quotes, backslashes and the control characters below U+0020 are escaped,
the latter by their letter where they have one and by four lower-case
hexadecimal digits where not; all other characters stand for themselves.
-/
import OnceProxy.Text.Hex

namespace OnceProxy.Text.Json

/-- The written form of a character inside a string. -/
def escape (c : Char) : List Char :=
  if c = '"' then ['\\', '"']
  else if c = '\\' then ['\\', '\\']
  else if c = '\n' then ['\\', 'n']
  else if c = '\r' then ['\\', 'r']
  else if c = '\t' then ['\\', 't']
  else if c.toNat = 8 then ['\\', 'b']
  else if c.toNat = 12 then ['\\', 'f']
  else if c.toNat < 32 then
    ['\\', 'u', '0', '0', Hex.digit (c.toNat / 16), Hex.digit (c.toNat % 16)]
  else [c]

/-- A text as a JSON string. -/
def quote (s : String) : String := String.ofList ('"' :: s.toList.flatMap escape ++ ['"'])

/-- A truth value. -/
def bool (b : Bool) : String := if b then "true" else "false"

/-- An object of one line, from names and written values. -/
def object (fields : List (String × String)) : String :=
  "\x7b" ++ ",".intercalate (fields.map fun (name, value) => quote name ++ ":" ++ value) ++ "\x7d"

/-- An object of one line per field, indented by two blanks. -/
def objectLines (fields : List (String × String)) : String :=
  "\x7b\n" ++ ",\n".intercalate (fields.map fun (name, value) =>
    "  " ++ quote name ++ ": " ++ value) ++ "\n\x7d"

end OnceProxy.Text.Json
