/-
Entries: the stored result of an operation.

An entry holds what the origin answered, the fingerprint that the answer
belongs to, and the milliseconds of its creation and expiry. From its
expiry on an entry counts as absent. Everything but the expiry is fixed
once the entry is stored.
-/
import OnceProxy.Fingerprint
import OnceProxy.Http.Hygiene
import OnceProxy.Http.Status

namespace OnceProxy

open Crypto Http

/-- A stored result. Header names and values are kept as they were written. -/
structure Entry where
  fingerprint : Digest
  content : Digest
  status : UInt16
  headers : List (String × Octets)
  body : Octets
  createdAt : UInt64
  expiresAt : UInt64
  deriving DecidableEq

namespace Entry

/-- The entry for a response; fields of one name stand together. -/
def ofResponse (fp : Fingerprint) (status : Status) (headers : Headers) (body : Octets)
    (createdAt expiresAt : UInt64) : Entry where
  fingerprint := fp.id
  content := fp.content
  status := UInt16.ofNat status.code
  headers := headers.grouped.map fun f => (f.1.text, f.2.octets)
  body := body
  createdAt := createdAt
  expiresAt := expiresAt

/-- Whether the entry has expired at an instant. -/
def isExpiredAt (e : Entry) (now : UInt64) : Bool := e.expiresAt ≤ now

/-- Whether the entry is the result of the operation with this fingerprint. -/
def answers (e : Entry) (fp : Fingerprint) : Bool := e.fingerprint = fp.id

/-- The entry with another expiry. -/
def withExpiry (e : Entry) (expiresAt : UInt64) : Entry := { e with expiresAt := expiresAt }

/-- Whether two entries differ at most in their expiry. -/
def sameResult (a b : Entry) : Bool := a.withExpiry 0 = b.withExpiry 0

/-- The status to reply with: a stored number that is none becomes 502. -/
def statusCode (e : Entry) : Status := (Status.ofCode? e.status.toNat).getD .badGateway

/-- The fields to reply with: those whose name and value can be fields. -/
def headerMap (e : Entry) : Headers :=
  ⟨e.headers.filterMap fun (name, value) => do
    return (← FieldName.parse? name, ← FieldValue.ofOctets? value)⟩

end Entry

end OnceProxy
