/-
Header fields: names, values, and the ordered multimap they form.

A name is a non-empty token kept in lower case, so two spellings of one
name are equal; a value is a string of octets without control characters
other than tab. Both carry their rule in the type. A header map is the list
of its fields in order of arrival: `append` adds a field at the end,
`insert` leaves one field of a name, `remove` leaves none.
-/
import OnceProxy.Octets

namespace OnceProxy.Http

-- =============================================================== names

/-- The characters of a token: letters, digits and some marks. -/
def isTokenChar (c : Char) : Bool :=
  c.isAlphanum || "!#$%&'*+-.^_\x60|~".toList.contains c

/-- A token character that is no upper-case letter. -/
def isLowerTokenChar (c : Char) : Bool := isTokenChar c && !c.isUpper

/-- Non-empty, lower-case token characters only, and below 2^16 of them. -/
def isFieldName (s : String) : Bool :=
  let cs := s.toList
  !cs.isEmpty && cs.all isLowerTokenChar && decide (cs.length < 65536)

/-- The name of a header field, in lower case. -/
structure FieldName where
  text : String
  valid : isFieldName text = true
  deriving DecidableEq

namespace FieldName

/-- Reads a name in any case. -/
def ofChars? (cs : List Char) : Option FieldName :=
  let text := String.ofList (cs.map Char.toLower)
  if h : isFieldName text = true then some ⟨text, h⟩ else none

/-- Reads a name in any case. -/
def parse? (s : String) : Option FieldName := ofChars? s.toList

instance : Inhabited FieldName := ⟨⟨"x", by decide⟩⟩

end FieldName

-- ============================================================== values

/-- Tab, or anything from space up other than delete. -/
def isValueOctet (o : UInt8) : Bool := o == 9 || (32 ≤ o && o != 127)

/-- Tab, or a visible character or space of ASCII. -/
def isPlainOctet (o : UInt8) : Bool := o == 9 || (32 ≤ o && o < 127)

/-- The value of a header field. -/
structure FieldValue where
  octets : Octets
  valid : octets.all isValueOctet = true
  deriving DecidableEq

namespace FieldValue

/-- The value with these octets, if none of them is a control character. -/
def ofOctets? (b : Octets) : Option FieldValue :=
  if h : b.all isValueOctet = true then some ⟨b, h⟩ else none

/-- The value as a text, if it is plain ASCII. -/
def text? (v : FieldValue) : Option String :=
  if v.octets.all isPlainOctet then some (Octets.toLatin1 v.octets) else none

/-- The value of a plain ASCII text; characters outside make it empty. -/
def ofText (s : String) : FieldValue := (ofOctets? (Octets.ofText s)).getD ⟨[], rfl⟩

end FieldValue

-- ================================================================ maps

/-- A header field. -/
abbrev Field := FieldName × FieldValue

/-- An ordered multimap of header fields. -/
structure Headers where
  fields : List Field
  deriving DecidableEq

namespace Headers

/-- No fields. -/
def empty : Headers := ⟨[]⟩

/-- The values of a name, in order. -/
def values (h : Headers) (name : FieldName) : List FieldValue :=
  (h.fields.filter (·.1 = name)).map (·.2)

/-- The first value of a name. -/
def first? (h : Headers) (name : FieldName) : Option FieldValue := (h.values name).head?

/-- Adds a field behind those of its name that are there. -/
def append (h : Headers) (name : FieldName) (value : FieldValue) : Headers :=
  ⟨h.fields ++ [(name, value)]⟩

/-- Keeps the fields whose name passes. -/
def keep (h : Headers) (pass : FieldName → Bool) : Headers := ⟨h.fields.filter fun f => pass f.1⟩

/-- Drops all fields of a name. -/
def remove (h : Headers) (name : FieldName) : Headers := h.keep fun n => !decide (n = name)

/-- Makes the value the only one of its name, in the place of the first field
of that name, or at the end. -/
def insert (h : Headers) (name : FieldName) (value : FieldValue) : Headers :=
  let before := h.fields.takeWhile fun f => !decide (f.1 = name)
  let behind := h.fields.dropWhile fun f => !decide (f.1 = name)
  ⟨before ++ (name, value) :: behind.filter fun f => !decide (f.1 = name)⟩

/-- The names present, each once, in order of first appearance. -/
def names (h : Headers) : List FieldName :=
  h.fields.foldl (fun seen f => if seen.contains f.1 then seen else seen ++ [f.1]) []

/-- The fields with all fields of a name together, names in order of first
appearance. -/
def grouped (h : Headers) : List Field :=
  h.names.flatMap fun n => h.fields.filter fun f => decide (f.1 = n)

end Headers

end OnceProxy.Http
