/-
Request targets and absolute URIs, as HTTP messages carry them.

A URI is a path with an optional query, a lone `*`, a lone authority, or a
scheme with an authority and a path. A fragment is dropped. Characters
outside ASCII are let through in paths and queries, and nowhere else.
-/
import OnceProxy.Text.Pieces

namespace OnceProxy.Http

/-- Why a text is no URI. -/
inductive UriError where
  | empty
  | tooLong
  | badChar
  | badFormat
  | badAuthority
  | schemeTooLong
  deriving DecidableEq, Repr

/-- The words for a fault of a URI. -/
def UriError.message : UriError → String
  | .empty => "empty string"
  | .tooLong => "uri too long"
  | .badChar => "invalid uri character"
  | .badFormat => "invalid format"
  | .badAuthority => "invalid authority"
  | .schemeTooLong => "scheme too long"

/-- A URI in its parts. -/
structure Uri where
  scheme : Option String
  authority : String
  /-- Path and query as they were written. -/
  target : String
  deriving DecidableEq, Repr

namespace Uri

-- ============================================================ characters

/-- The characters of a path. -/
def isPathChar (c : Char) : Bool :=
  let n := c.toNat
  n = 0x21 || (0x24 ≤ n && n ≤ 0x3B) || n = 0x3D || (0x40 ≤ n && n ≤ 0x5F) ||
    (0x61 ≤ n && n ≤ 0x7A) || n = 0x7C || 0x7E ≤ n || c = '"' || c = '\x7b' || c = '\x7d'

/-- The characters of a query. -/
def isQueryChar (c : Char) : Bool :=
  let n := c.toNat
  n = 0x21 || (0x24 ≤ n && n ≤ 0x3B) || n = 0x3D || 0x3F ≤ n

/-- The characters of an authority, its delimiters included. -/
def isAuthorityChar (c : Char) : Bool :=
  c.isAlphanum || "!$&'()*+,-.:;=@[]_~".toList.contains c

/-- The characters of a scheme. -/
def isSchemeChar (c : Char) : Bool := c.isAlphanum || c = '+' || c = '-' || c = '.'

-- ================================================================ parts

/-- Path and query up to a fragment. -/
def parseTarget (cs : List Char) : Except UriError String :=
  let kept := cs.takeWhile (· ≠ '#')
  let path := kept.takeWhile (· ≠ '?')
  let query := (kept.dropWhile (· ≠ '?')).drop 1
  if path.all isPathChar ∧ query.all isQueryChar then .ok (String.ofList kept) else .error .badChar

/-- What has been seen of an authority. -/
structure AuthorityState where
  colons : Nat
  opened : Bool
  closed : Bool
  percent : Bool
  /-- Whether the last character was `@`. -/
  atEnd : Bool

/-- The length of the authority in front. Colons and percent signs in front
of `@` or inside brackets do not count; a host has at most one bracketed
part, one colon and no percent sign. -/
def scanAuthority (length : Nat) (s : AuthorityState) : List Char → Except UriError Nat
  | [] => finish
  | c :: cs =>
    if c = '/' ∨ c = '?' ∨ c = '#' then finish
    else if c = ':' then
      if 8 ≤ s.colons then .error .badAuthority
      else scanAuthority (length + 1) { s with colons := s.colons + 1, atEnd := false } cs
    else if c = '[' then
      if s.percent ∨ s.opened then .error .badAuthority
      else scanAuthority (length + 1) { s with opened := true, atEnd := false } cs
    else if c = ']' then
      if !s.opened ∨ s.closed then .error .badAuthority
      else scanAuthority (length + 1)
        { s with closed := true, colons := 0, percent := false, atEnd := false } cs
    else if c = '@' then
      scanAuthority (length + 1) { s with colons := 0, percent := false, atEnd := true } cs
    else if c = '%' then scanAuthority (length + 1) { s with percent := true, atEnd := false } cs
    else if isAuthorityChar c then scanAuthority (length + 1) { s with atEnd := false } cs
    else .error .badChar
where
  /-- The checks at the end. -/
  finish : Except UriError Nat :=
    if s.opened ≠ s.closed ∨ 1 < s.colons ∨ s.atEnd ∨ s.percent then .error .badAuthority
    else .ok length

/-- The length of the authority in front. -/
def authorityLength (cs : List Char) : Except UriError Nat :=
  scanAuthority 0 ⟨0, false, false, false, false⟩ cs

/-- The scheme in front of `://`, if there is one, and the rest. -/
def splitScheme (cs : List Char) : Except UriError (Option String × List Char) :=
  let name := cs.takeWhile isSchemeChar
  match cs.dropWhile isSchemeChar with
  | ':' :: '/' :: '/' :: rest =>
    let lower := String.ofList (name.map Char.toLower)
    if lower = "http" ∨ lower = "https" then .ok (some lower, rest)
    else if 64 < name.length then .error .schemeTooLong
    else .ok (some (String.ofList name), rest)
  | _ => .ok (none, cs)

/-- The longest URI, in octets. -/
def maxLength : Nat := 65534

/-- Reads a URI. -/
def parse (s : String) : Except UriError Uri := do
  let cs := s.toList
  if maxLength < s.utf8ByteSize then throw .tooLong
  match cs with
  | [] => throw .empty
  | ['*'] => return ⟨none, "", "*"⟩
  | '/' :: _ => return ⟨none, "", ← parseTarget cs⟩
  | _ =>
    let (scheme, rest) ← splitScheme cs
    let length ← authorityLength rest
    let authority := String.ofList (rest.take length)
    let behind := rest.drop length
    match scheme with
    | none =>
      if behind.isEmpty then return ⟨none, authority, ""⟩
      else if cs.length = 1 then throw .badChar
      else throw .badFormat
    | some scheme =>
      if length = 0 then throw .badFormat
      return ⟨some scheme, authority, ← parseTarget behind⟩

/-- Path and query as a handler sees them; a slash if there is none. -/
def pathAndQuery (u : Uri) : String := if u.target.isEmpty then "/" else u.target

/-- Path and query as a request line carries them: a query alone gets a slash
in front. -/
def requestTarget (u : Uri) : String :=
  match u.target.toList with
  | [] => "/"
  | '/' :: _ | '*' :: _ => u.target
  | _ => "/" ++ u.target

end Uri

end OnceProxy.Http
