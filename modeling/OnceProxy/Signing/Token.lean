/-
Proxy tokens: a signed statement that an agent may use the proxy until a second.

A token is the triple of expiry, agent and signature in URL-safe text. The
signature covers expiry and agent; what is hashed for it is `tokenInput`.
-/
import OnceProxy.Cbor.Read
import OnceProxy.Signing.Envelope
import OnceProxy.Text.Base64Url

namespace OnceProxy

open Cbor Crypto Secp256k1 Signing

/-- The contents of a token. -/
structure Token where
  expireAt : UInt64
  agent : String
  signature : Octets
  deriving DecidableEq

namespace Token

/-- What is hashed for a token's signature. -/
def tokenInput (expireAt : UInt64) (agent : String) : Octets :=
  (Value.array [.unsigned expireAt, .text agent]).encode

/-- The digest that is signed. -/
def digest (expireAt : UInt64) (agent : String) : Digest := keccak256 (tokenInput expireAt agent)

/-- The contents as a triple. -/
def toOctets (t : Token) : Octets :=
  (Value.array [.unsigned t.expireAt, .text t.agent, .octets t.signature]).encode

/-- The token that a triple off the front spells. -/
def ofOctets? (b : Octets) : Option Token :=
  (readTriple readUInt64 readText readOctets b).map fun ((expireAt, agent, signature), _) =>
    ⟨expireAt, agent, signature⟩

/-- The token that a signer gives to an agent. -/
def issue (signer : Signer) (expireAt : UInt64) (agent : String) : String :=
  Text.Base64Url.encode
    (Token.mk expireAt agent (signer.signDigest (digest expireAt agent)).toOctets).toOctets

/-- Reads a token and checks its expiry, its signature and the trust in its
signer, in this order. White space around the token does not matter. -/
def verify (trusted : List Address) (text : String) (now : UInt64) :
    Except SigningError Token := do
  let some octets := Text.Base64Url.decodeChars (Text.trim text.toList)
    | throw (.malformedSignature .tokenEncoding)
  let some token := ofOctets? octets | throw (.malformedSignature .tokenLayout)
  if addSaturating token.expireAt permittedDrift < now then throw (.expired token.expireAt)
  match Signature.ofOctets token.signature with
  | .error fault => throw (.malformedSignature fault)
  | .ok signature =>
    match signature.signerOf (digest token.expireAt token.agent) with
    | .error fault => throw (.malformedSignature fault)
    | .ok signer =>
      if trusted.contains signer then return token else throw (.untrustedSigner signer)

end Token

end OnceProxy
