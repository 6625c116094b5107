/-
What can go wrong with keys, signatures and tokens, and the words for it.
-/
import OnceProxy.Crypto.Address
import OnceProxy.Http.Field

namespace OnceProxy.Signing

open Crypto Http

/-- Why a text is no private key. -/
inductive KeyTextFault where
  | oddLength
  | wrongLength
  | badDigit (octet : UInt8) (position : Nat)
  | outOfRange
  deriving DecidableEq, Repr

/-- The words for a fault of a private key's text. -/
def KeyTextFault.message : KeyTextFault → String
  | .oddLength => "odd number of digits"
  | .wrongLength => "invalid string length"
  | .badDigit octet position =>
    "invalid character '" ++ Octets.toLatin1 [octet] ++ "' at position " ++ toString position
  | .outOfRange => "signature error"

/-- Where a signer's key was looked for. -/
inductive KeySource where
  | environment
  | environmentOrConfig
  deriving DecidableEq, Repr

/-- The environment variable that holds the signer's key. -/
def keyVariable : String := "IDEMPOTENT_PROXY_SIGNER_KEY"

/-- The words for a key that is in neither place. -/
def KeySource.message : KeySource → String
  | .environment => "environment variable " ++ keyVariable ++ " not set"
  | .environmentOrConfig => "set " ++ keyVariable ++ " or signing.private_key"

/-- Why octets are no signature, or carry none. -/
inductive SignatureFault where
  | wrongSize
  | badParity (value : UInt8)
  | unrecoverable
  | tokenEncoding
  | tokenLayout
  deriving DecidableEq, Repr

/-- The words for a fault of a signature. -/
def SignatureFault.message : SignatureFault → String
  | .wrongSize => "expected exactly 65 bytes"
  | .badParity value => "invalid parity: " ++ toString value.toNat
  | .unrecoverable => "signature error"
  | .tokenEncoding => "token encoding"
  | .tokenLayout => "token layout"

/-- What can go wrong in signing and verifying. -/
inductive SigningError where
  | invalidKey (fault : KeyTextFault)
  | missingKey (source : KeySource)
  | malformedSignature (fault : SignatureFault)
  | wrongSigner (expected actual : Address)
  | untrustedSigner (signer : Address)
  | expired (timestamp : UInt64)
  | fromFuture (timestamp : UInt64)
  | missingHeader (name : FieldName)
  | malformedHeader (name : FieldName)
  deriving DecidableEq

/-- The words for a signing error. -/
def SigningError.message : SigningError → String
  | .invalidKey fault => "Invalid private key: " ++ fault.message
  | .missingKey source => "Signer key not configured: " ++ source.message
  | .malformedSignature fault => "Malformed signature: " ++ fault.message
  | .wrongSigner expected actual =>
    "Signed by " ++ actual.render ++ ", expected " ++ expected.render
  | .untrustedSigner signer => "Signer " ++ signer.render ++ " is not trusted"
  | .expired timestamp => "Signature expired (timestamp " ++ toString timestamp.toNat ++ ")"
  | .fromFuture timestamp =>
    "Signature timestamp " ++ toString timestamp.toNat ++ " is in the future"
  | .missingHeader name => "Missing header " ++ name.text
  | .malformedHeader name => "Malformed header " ++ name.text

/-- How far apart two clocks may be, in seconds. -/
def permittedDrift : UInt64 := 10

end OnceProxy.Signing
