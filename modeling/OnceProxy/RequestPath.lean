/-
Request paths and their normal form.

A path with a query is cut at its first question mark. In front of it only
the non-empty segments between slashes count; the query is kept as it is,
question mark included. Two spellings of one path and query thus have one
normal form.
-/
import OnceProxy.Text.Pieces

namespace OnceProxy.RequestPath

/-- The part before the first question mark, and the part from it on. -/
def splitQuery (cs : List Char) : List Char × List Char := Text.spanChars (· ≠ '?') cs

/-- The non-empty segments of the part before the query. -/
def segments (cs : List Char) : List (List Char) :=
  (Text.pieces '/' (splitQuery cs).1).filter fun segment => !segment.isEmpty

/-- A slash in front of every segment; a lone slash if there is none. -/
def joinSegments (segments : List (List Char)) : List Char :=
  if segments.isEmpty then ['/'] else segments.flatMap fun segment => '/' :: segment

/-- The normal form, on characters. -/
def normalizeChars (cs : List Char) : List Char :=
  joinSegments (segments cs) ++ (splitQuery cs).2

/-- The normal form of a path with its query. -/
def normalize (path : String) : String := String.ofList (normalizeChars path.toList)

end OnceProxy.RequestPath
