/-
Values of the binary format CBOR and their canonical form.

The canonical form uses the shortest heads, closed lengths, and the order
in which arrays and maps list their contents. `depth` counts the arrays and
maps around the innermost item, which readers bound.
-/
import OnceProxy.Cbor.Header

namespace OnceProxy.Cbor

/-- A value built from integers, strings, arrays, maps, booleans and null. -/
inductive Value where
  | unsigned (n : UInt64)
  | negative (n : UInt64)
  | octets (b : Octets)
  | text (s : String)
  | array (items : List Value)
  | map (entries : List (Value × Value))
  | bool (b : Bool)
  | null

namespace Value

mutual

/-- The canonical form of a value. -/
def encode : Value → Octets
  | .unsigned n => head 0 n.toNat
  | .negative n => head 1 n.toNat
  | .octets b => head 2 b.length ++ b
  | .text s => let b := Octets.ofText s; head 3 b.length ++ b
  | .array items => head 4 items.length ++ encodeItems items
  | .map entries => head 5 entries.length ++ encodeEntries entries
  | .bool false => [0xf4]
  | .bool true => [0xf5]
  | .null => [0xf6]

/-- The forms of the items of an array, one after the other. -/
def encodeItems : List Value → Octets
  | [] => []
  | v :: vs => encode v ++ encodeItems vs

/-- The forms of the keys and values of a map, one after the other. -/
def encodeEntries : List (Value × Value) → Octets
  | [] => []
  | (k, v) :: rest => encode k ++ (encode v ++ encodeEntries rest)

end

mutual

/-- How many arrays and maps lie around the innermost item. -/
def depth : Value → Nat
  | .array items => depthItems items + 1
  | .map entries => depthEntries entries + 1
  | _ => 0

/-- The greatest depth of the items. -/
def depthItems : List Value → Nat
  | [] => 0
  | v :: vs => max (depth v) (depthItems vs)

/-- The greatest depth of the keys and values. -/
def depthEntries : List (Value × Value) → Nat
  | [] => 0
  | (k, v) :: rest => max (max (depth k) (depth v)) (depthEntries rest)

end

end Value

end OnceProxy.Cbor
