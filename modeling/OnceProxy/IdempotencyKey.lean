/-
Idempotency keys: what a caller sends to mark a request and its repetitions
as one operation.

A key is a non-empty text of at most 255 visible ASCII characters. Requests
that may change state need one; others need one only where the policy says
so.
-/
import OnceProxy.Http.Method

namespace OnceProxy

/-- What can be wrong with the key of a request. -/
inductive KeyFault where
  | empty
  | tooLong
  | notVisible
  | missing
  deriving DecidableEq, Repr

/-- The words for a fault of the key. -/
def KeyFault.message : KeyFault → String
  | .empty => "idempotency key must not be empty"
  | .tooLong => "idempotency key exceeds 255 bytes"
  | .notVisible => "idempotency key must be visible ASCII"
  | .missing => "idempotency key is required for this request"

/-- From `!` to `~`. -/
def isVisible (c : Char) : Bool := 0x21 ≤ c.toNat && c.toNat ≤ 0x7e

/-- Between 1 and 255 visible characters. -/
def isKeyText (s : String) : Bool :=
  let cs := s.toList
  !cs.isEmpty && cs.all isVisible && decide (cs.length ≤ 255)

/-- An idempotency key. -/
structure IdempotencyKey where
  text : String
  valid : isKeyText text = true
  deriving DecidableEq

namespace IdempotencyKey

/-- Reads a key. The length counts octets, and is looked at before the characters. -/
def parse (raw : String) : Except KeyFault IdempotencyKey :=
  if raw.isEmpty then .error .empty
  else if 255 < raw.utf8ByteSize then .error .tooLong
  else if h : isKeyText raw = true then .ok ⟨raw, h⟩
  else .error .notVisible

/-- The key of a request: any key that is given has to be a valid one, and
one has to be given if the method may change state or `required` says so. -/
def ofRequest (method : Http.Method) (raw : Option String) (required : Bool) :
    Except KeyFault (Option IdempotencyKey) :=
  match raw with
  | some raw => (parse raw).map some
  | none => if method.isMutating || required then .error .missing else .ok none

end IdempotencyKey

end OnceProxy
