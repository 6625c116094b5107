/-
The stored form of an entry: a map with one short text key per field.

Writing lists the fields in a fixed order with the format's version first.
Reading takes the fields in any order, passes over fields it does not know,
and lets headers and body default to empty, so that later versions may add
fields; a version above the one written here is refused.
-/
import OnceProxy.Cbor.Read
import OnceProxy.Cbor.Value
import OnceProxy.Entry

namespace OnceProxy

open Crypto Cbor

-- ============================================================== errors

/-- Why an entry cannot be written or read. -/
inductive CodecError where
  /-- Writing failed. -/
  | unwritable (detail : String)
  /-- The octets are not an entry. -/
  | malformed
  /-- A digest field does not have 32 octets. -/
  | digestSize (field : String) (size : Nat)
  /-- The entry is of a later version. -/
  | unsupportedVersion (version : Nat)
  deriving DecidableEq, Repr

/-- The words for a codec error. -/
def CodecError.message : CodecError → String
  | .unwritable detail => "failed to encode cache entry: " ++ detail
  | .malformed => "failed to decode cache entry"
  | .digestSize field size =>
    "failed to decode cache entry: " ++ field ++ " must be 32 bytes, got " ++ toString size
  | .unsupportedVersion version =>
    "unsupported cache entry format version " ++ toString version

namespace Entry

/-- The version of the stored form. -/
def formatVersion : Nat := 1

-- ============================================================= writing

/-- The keys and values of the stored form, in order. -/
def storedFields (e : Entry) : List (String × Value) :=
  [("v", .unsigned (UInt64.ofNat formatVersion)),
   ("fp", .octets e.fingerprint.octets),
   ("cd", .octets e.content.octets),
   ("st", .unsigned e.status.toUInt64),
   ("hd", .array (e.headers.map fun (name, value) => .array [.text name, .octets value])),
   ("bd", .octets e.body),
   ("ca", .unsigned e.createdAt),
   ("ea", .unsigned e.expiresAt)]

/-- The stored form. -/
def encode (e : Entry) : Octets :=
  (Value.map (e.storedFields.map fun (key, v) => (.text key, v))).encode

-- ============================================================= reading

/-- The fields read so far. -/
structure Draft where
  version : Option Nat
  fingerprint : Option Octets
  content : Option Octets
  status : Option Nat
  headers : Option (List (String × Octets))
  body : Option Octets
  createdAt : Option UInt64
  expiresAt : Option UInt64

/-- No field read yet. -/
def Draft.empty : Draft := ⟨none, none, none, none, none, none, none, none⟩

/-- Reads the field of a key into the draft; an unknown key's value is
passed over. -/
def Draft.readField (d : Draft) (key : Octets) : Reader Draft := fun b => do
  if key = Octets.ofText "v" then
    let (x, b) ← readOnce d.version (readNatural 256) b
    return ({ d with version := some x }, b)
  else if key = Octets.ofText "fp" then
    let (x, b) ← readOnce d.fingerprint readOctets b
    return ({ d with fingerprint := some x }, b)
  else if key = Octets.ofText "cd" then
    let (x, b) ← readOnce d.content readOctets b
    return ({ d with content := some x }, b)
  else if key = Octets.ofText "st" then
    let (x, b) ← readOnce d.status (readNatural 65536) b
    return ({ d with status := some x }, b)
  else if key = Octets.ofText "hd" then
    let (x, b) ← readOnce d.headers (readSequence (readPair readText readOctets)) b
    return ({ d with headers := some x }, b)
  else if key = Octets.ofText "bd" then
    let (x, b) ← readOnce d.body readOctets b
    return ({ d with body := some x }, b)
  else if key = Octets.ofText "ca" then
    let (x, b) ← readOnce d.createdAt readUInt64 b
    return ({ d with createdAt := some x }, b)
  else if key = Octets.ofText "ea" then
    let (x, b) ← readOnce d.expiresAt readUInt64 b
    return ({ d with expiresAt := some x }, b)
  else
    let b ← skip (depthLimit - 1) b
    return (d, b)

/-- The digest in a field, which has to have the right size. -/
def digestField (b : Octets) (field : String) : Except CodecError Digest :=
  match Digest.ofOctets? b with
  | some d => .ok d
  | none => .error (.digestSize field b.length)

/-- The entry that a complete draft describes. The version is looked at
before the digests. -/
def Draft.finish (d : Draft) : Except CodecError Entry :=
  match d.version, d.fingerprint, d.content, d.status, d.createdAt, d.expiresAt with
  | some version, some fingerprint, some content, some status, some createdAt, some expiresAt =>
    if formatVersion < version then .error (.unsupportedVersion version)
    else do
      let fingerprint ← digestField fingerprint "fingerprint"
      let content ← digestField content "content digest"
      return {
        fingerprint, content, createdAt, expiresAt
        status := UInt16.ofNat status
        headers := d.headers.getD []
        body := d.body.getD [] }
  | _, _, _, _, _, _ => .error .malformed

/-- Reads an entry off the front; octets behind it do not matter. -/
def decode (b : Octets) : Except CodecError Entry :=
  match readRecord Draft.readField .empty b with
  | some (draft, _) => draft.finish
  | none => .error .malformed

end Entry

end OnceProxy
