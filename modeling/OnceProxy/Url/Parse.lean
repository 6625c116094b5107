/-
URLs: reading and writing.

A URL has a scheme, an authority, a path, a query and a fragment. The
special schemes always have a host, take backslashes for slashes, and leave
out their default port. The path is kept as its written form: dot segments
are resolved and characters outside the path's set are percent-encoded.
Tabs and line ends inside a URL, and controls and blanks around it, do not
count.
-/
import OnceProxy.Url.Host

namespace OnceProxy

/-- A URL in its parts, each in its written form. -/
structure Url where
  scheme : String
  /-- User name and password, with their separator; empty if there are none. -/
  credentials : String
  host : Option String
  port : Option Nat
  path : String
  query : Option String
  fragment : Option String
  deriving DecidableEq, Repr

namespace Url

-- =============================================================== sets

/-- The characters encoded in a fragment. -/
def inFragmentSet (c : Char) : Bool := isControl c || " \"<>\x60".toList.contains c

/-- The characters encoded in a path. -/
def inPathSet (c : Char) : Bool := inFragmentSet c || "#?\x7b\x7d".toList.contains c

/-- The characters encoded in user names and passwords. -/
def inCredentialSet (c : Char) : Bool := inPathSet c || "/:;=@[\\]^|".toList.contains c

/-- The characters encoded in a query. -/
def inQuerySet (isSpecial : Bool) (c : Char) : Bool :=
  isControl c || " \"#<>".toList.contains c || (isSpecial && c = '\'')

-- ============================================================= schemes

/-- The special schemes and their default ports. -/
def specialPorts : List (String × Nat) :=
  [("http", 80), ("https", 443), ("ws", 80), ("wss", 443), ("ftp", 21)]

/-- A letter, and letters, digits and three marks up to a colon; in lower
case, with the characters behind the colon. -/
def splitScheme (cs : List Char) : Option (String × List Char) :=
  let isSchemeChar (c : Char) := c.isAlphanum || c = '+' || c = '-' || c = '.'
  let name := cs.takeWhile isSchemeChar
  match cs.dropWhile isSchemeChar with
  | ':' :: rest =>
    if name.head?.any Char.isAlpha then some (String.ofList (name.map Char.toLower), rest) else none
  | _ => none

-- =========================================================== authority

/-- Whether a character ends the authority. -/
def endsAuthority (isSpecial : Bool) (c : Char) : Bool :=
  c = '/' || c = '?' || c = '#' || (isSpecial && c = '\\')

/-- The characters in front of and behind the last of a kind. -/
def splitLast (mark : Char) (cs : List Char) : Option (List Char × List Char) :=
  if cs.contains mark then
    let backwards := cs.reverse
    some (((backwards.dropWhile (· ≠ mark)).drop 1).reverse,
      (backwards.takeWhile (· ≠ mark)).reverse)
  else none

/-- The written form of a user name and a password. -/
def renderCredentials (cs : List Char) : String :=
  let user := cs.takeWhile (· ≠ ':')
  let password := (cs.dropWhile (· ≠ ':')).drop 1
  let encode (cs : List Char) := String.ofList (percentEncode inCredentialSet cs)
  encode user ++ (if password.isEmpty then "" else ":" ++ encode password)

/-- The characters of a host, up to a colon outside brackets. -/
def hostChars : (inside : Bool) → List Char → List Char
  | _, [] => []
  | inside, c :: cs =>
    if c = ':' && !inside then []
    else c :: hostChars (if c = '[' then true else if c = ']' then false else inside) cs

/-- A port; none if it is empty or the scheme's own. -/
def parsePort (default : Option Nat) (cs : List Char) : Except UrlError (Option Nat) :=
  if !cs.all Char.isDigit then .error .badPort
  else
    let n := cs.foldl (fun n c => min (n * 10 + (c.toNat - 48)) 65536) 0
    if 65535 < n then .error .badPort
    else if cs.isEmpty ∨ some n = default then .ok none
    else .ok (some n)

/-- The parts of an authority: credentials, host and port. -/
def parseAuthority (scheme : String) (isSpecial : Bool) (cs : List Char) :
    Except UrlError (String × Option String × Option Nat) := do
  let (credentials, place) := (splitLast '@' cs).getD ([], cs)
  let hasMark := cs.contains '@'
  let host := hostChars false place
  let behind := place.drop host.length
  if host.isEmpty then
    if isSpecial ∨ !behind.isEmpty ∨ (hasMark ∧ !credentials.isEmpty) then throw .emptyHost
    return ("", some "", none)
  let name ← if isSpecial then parseHost host else parseOpaqueHost host
  let port ← parsePort (specialPorts.lookup scheme) ((behind.drop 1).takeWhile (· ≠ '\\'))
  return (renderCredentials credentials, some name, port)

-- ================================================================ path

/-- Whether a segment stands for the segment itself. -/
def isSingleDot (segment : List Char) : Bool :=
  [".", "%2e"].contains (String.ofList (segment.map Char.toLower))

/-- Whether a segment stands for the one before. -/
def isDoubleDot (segment : List Char) : Bool :=
  ["..", ".%2e", "%2e.", "%2e%2e"].contains (String.ofList (segment.map Char.toLower))

/-- Resolves dot segments; a dot segment at the end leaves an empty one. -/
def resolveDots (kept : List (List Char)) : List (List Char) → List (List Char)
  | [] => kept
  | segment :: rest =>
    if isDoubleDot segment then
      resolveDots (if rest.isEmpty then kept.dropLast ++ [[]] else kept.dropLast) rest
    else if isSingleDot segment then
      resolveDots (if rest.isEmpty then kept ++ [[]] else kept) rest
    else resolveDots (kept ++ [segment]) rest

/-- The written form of a path behind an authority. -/
def renderPath (isSpecial : Bool) (cs : List Char) : String :=
  let cs := if isSpecial then cs.map fun c => if c = '\\' then '/' else c else cs
  if cs.isEmpty then if isSpecial then "/" else ""
  else
    let segments := Text.pieces '/' (if cs.head? = some '/' then cs.drop 1 else cs)
    String.ofList <| (resolveDots [] segments).flatMap fun s => '/' :: percentEncode inPathSet s

/-- The parts in front of and behind the first of a kind. -/
def cut (mark : Char) (cs : List Char) : List Char × Option (List Char) :=
  match cs.dropWhile (· ≠ mark) with
  | [] => (cs, none)
  | _ :: rest => (cs.takeWhile (· ≠ mark), some rest)

-- ============================================================= reading

/-- The characters that count: no controls or blanks around, and no tabs or
line ends inside. -/
def significant (s : String) : List Char :=
  (Text.trimChars (fun c => c.toNat ≤ 32) s.toList).filter fun c =>
    !(c = '\t' || c = '\n' || c = '\r')

/-- Reads a URL. -/
def parse (s : String) : Except UrlError Url := do
  let some (scheme, rest) := splitScheme (significant s) | throw .relative
  let isFile := scheme = "file"
  let isSpecial := isFile || (specialPorts.lookup scheme).isSome
  let (rest, fragment) := cut '#' rest
  let (rest, query) := cut '?' rest
  let isSlash (c : Char) : Bool := c = '/' || (isSpecial && c = '\\')
  let slashes := (rest.takeWhile isSlash).length
  let (authority?, path) :=
    if isFile then
      if 2 ≤ slashes then
        let rest := rest.drop 2
        (some (rest.takeWhile fun c => !isSlash c), rest.dropWhile fun c => !isSlash c)
      else (none, rest)
    else if isSpecial then
      let rest := rest.drop slashes
      (some (rest.takeWhile fun c => !isSlash c), rest.dropWhile fun c => !isSlash c)
    else if 2 ≤ slashes then
      let rest := rest.drop 2
      (some (rest.takeWhile fun c => !isSlash c), rest.dropWhile fun c => !isSlash c)
    else (none, rest)
  let (credentials, host, port) ←
    match authority? with
    | none => pure ("", none, none)
    | some [] =>
      if isSpecial && !isFile then throw .emptyHost else pure ("", some "", none)
    | some cs =>
      if isFile then do
        if cs.length = 2 ∧ cs.head?.any Char.isAlpha ∧ (cs.getLast? = some ':' ∨ cs.getLast? = some '|')
        then pure ("", some "", none)
        else pure ("", some (← parseHost cs), none)
      else parseAuthority scheme isSpecial cs
  let isOpaque := authority?.isNone && !isFile && slashes = 0
  return {
    scheme, credentials, host, port
    path :=
      if isOpaque then String.ofList (percentEncode isControl path)
      else renderPath isSpecial path
    query := query.map fun q => String.ofList (percentEncode (inQuerySet isSpecial) q)
    fragment := fragment.map fun f => String.ofList (percentEncode inFragmentSet f) }

-- ============================================================= writing

/-- The authority in its written form. -/
def authority (u : Url) : String :=
  (if u.credentials.isEmpty then "" else u.credentials ++ "@") ++ u.host.getD "" ++
    (match u.port with
      | some n => ":" ++ toString n
      | none => "")

/-- The URL in its written form. -/
def render (u : Url) : String :=
  u.scheme ++ ":" ++ (if u.host.isSome then "//" ++ u.authority else "") ++ u.path ++
    (match u.query with
      | some q => "?" ++ q
      | none => "") ++
    (match u.fragment with
      | some f => "#" ++ f
      | none => "")

end Url

end OnceProxy
