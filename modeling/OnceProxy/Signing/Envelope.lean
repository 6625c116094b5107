/-
Envelopes: the proxy's signature on what it sends to the origin.

The payload of a request lists its method, path, key and body; the envelope
binds it to a second and to the signer's address. Three header fields carry
the envelope, and the receiver rebuilds the payload from the request itself.
What is hashed for a signature is a definition of its own
(`signingInput`), so that its readability can be stated apart from the hash.
-/
import OnceProxy.Cbor.Value
import OnceProxy.Http.Hygiene
import OnceProxy.Http.Method
import OnceProxy.Saturating
import OnceProxy.Signing.Signer
import OnceProxy.Text.Decimal

namespace OnceProxy

open Cbor Crypto Secp256k1 Http Signing

namespace Signing

-- ============================================================= payloads

/-- What is signed for a request; an absent key counts as an empty one. -/
def outboundPayload (method : Method) (path : String) (key : Option String) (body : Octets) :
    Octets :=
  (Value.array [.text method.text, .text path, .text (key.getD ""), .octets body]).encode

/-- What is hashed for a signature of a payload at a second. -/
def signingInput (timestamp : UInt64) (payload : Octets) : Octets :=
  (Value.array [.unsigned timestamp, .octets payload]).encode

/-- The digest that is signed. -/
def signingDigest (timestamp : UInt64) (payload : Octets) : Digest :=
  keccak256 (signingInput timestamp payload)

end Signing

/-- A payload with a signature on it. -/
structure Envelope where
  payload : Octets
  signature : Signature
  signer : Address
  timestamp : UInt64
  deriving DecidableEq

/-- The envelope of a payload at a second. -/
def Signer.signAt (s : Signer) (payload : Octets) (timestamp : UInt64) : Envelope :=
  ⟨payload, s.signDigest (signingDigest timestamp payload), s.address, timestamp⟩

namespace Envelope

-- ============================================================= transport

/-- Sets the three fields that carry the envelope, each as the only one of
its name. -/
def applyTo (e : Envelope) (h : Headers) : Headers :=
  ((h.insert .signer (.ofText e.signer.render)).insert .timestamp
    (.ofText (Text.Decimal.render e.timestamp.toNat))).insert .signature
    (.ofText (Text.Hex.prefixed e.signature.toOctets))

/-- The plain text of the first field of a name. -/
def fieldText (h : Headers) (name : FieldName) : Except SigningError String :=
  match h.first? name with
  | none => .error (.missingHeader name)
  | some v =>
    match v.text? with
    | none => .error (.malformedHeader name)
    | some s => .ok s

/-- The value that a field's text spells. -/
def readField (h : Headers) (name : FieldName) (read : String → Option α) :
    Except SigningError α := do
  match read (← fieldText h name) with
  | some a => return a
  | none => throw (.malformedHeader name)

/-- Reads the octets that digits behind an optional prefix spell. -/
def signatureText (s : String) : Option Octets :=
  Text.Hex.decodeChars (Text.Hex.stripOne s.toList)

/-- The envelope that three fields carry, around a payload rebuilt by the
receiver. The fields are read in order: signer, timestamp, signature. -/
def ofHeaders (h : Headers) (payload : Octets) : Except SigningError Envelope := do
  let signer ← readField h .signer Address.parse?
  let timestamp ← readField h .timestamp Text.Decimal.parseUInt64
  let octets ← readField h .signature signatureText
  match Signature.ofOctets octets with
  | .error fault => throw (.malformedSignature fault)
  | .ok signature => return ⟨payload, signature, signer, timestamp⟩

end Envelope

-- ========================================================= verification

/-- A receiver that trusts one signer, and signatures up to an age in seconds. -/
structure Verifier where
  expected : Address
  maxAge : UInt64

namespace Verifier

/-- Accepts an envelope at a second, or says why not. Age comes first, then
drift, then the claimed signer, then the signature. -/
def checkAt (v : Verifier) (e : Envelope) (now : UInt64) : Except SigningError Unit :=
  if addSaturating e.timestamp v.maxAge < now then .error (.expired e.timestamp)
  else if addSaturating now permittedDrift < e.timestamp then .error (.fromFuture e.timestamp)
  else if e.signer ≠ v.expected then .error (.wrongSigner v.expected e.signer)
  else
    match e.signature.signerOf (signingDigest e.timestamp e.payload) with
    | .error fault => .error (.malformedSignature fault)
    | .ok actual => if actual ≠ v.expected then .error (.wrongSigner v.expected actual) else .ok ()

/-- Accepts a request as the origin received it. -/
def checkRequest (v : Verifier) (method : Method) (path : String) (key : Option String)
    (h : Headers) (body : Octets) (now : UInt64) : Except SigningError Unit := do
  v.checkAt (← Envelope.ofHeaders h (outboundPayload method path key body)) now

end Verifier

end OnceProxy
