/-
Fingerprints: the identity of a keyed request.

Two octet strings are hashed. The one for the identity frames method,
normalized path, key and content digest; the one for the address frames the
key alone. Framing makes each string readable in one way only, so two
requests share an identity only if they agree in all four parts, or the
hash collides. The strings are definitions of their own, apart from their
digests, so that this can be stated.
-/
import OnceProxy.Crypto.Keccak
import OnceProxy.IdempotencyKey
import OnceProxy.RequestPath

namespace OnceProxy

open Crypto

/-- The address of an operation's entry: the digest of its key. -/
abbrev EntryKey := Digest

/-- The digest of a body. -/
def contentDigest (body : Octets) : Digest := keccak256 body

/-- The identity of a keyed request. -/
structure Fingerprint where
  id : Digest
  entryKey : EntryKey
  content : Digest
  deriving DecidableEq

namespace Fingerprint

/-- What is hashed for the identity. -/
def identityInput (method : Http.Method) (path : String) (key : IdempotencyKey) (body : Octets) :
    Octets :=
  Octets.framed (Octets.ofText method.text) ++
    (Octets.framed (Octets.ofText (RequestPath.normalize path)) ++
      (Octets.framed (Octets.ofText key.text) ++
        Octets.framed (contentDigest body).octets))

/-- What is hashed for the address. -/
def addressInput (key : IdempotencyKey) : Octets := Octets.framed (Octets.ofText key.text)

/-- The address of a key's entry. -/
def addressOf (key : IdempotencyKey) : EntryKey := keccak256 (addressInput key)

/-- The fingerprint of a request. -/
def ofRequest (method : Http.Method) (path : String) (key : IdempotencyKey) (body : Octets) :
    Fingerprint where
  id := keccak256 (identityInput method path key body)
  entryKey := addressOf key
  content := contentDigest body

end Fingerprint

end OnceProxy
