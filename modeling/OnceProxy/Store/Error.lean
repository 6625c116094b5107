/-
What can go wrong in the store, and the words for it.
-/
import OnceProxy.Entry.Codec

namespace OnceProxy.Store

/-- What can go wrong in the store. -/
inductive StoreError where
  /-- The key-value store refused a call or a snapshot could not be read. -/
  | backend (detail : String)
  /-- An entry could not be written or read. -/
  | codec (e : CodecError)
  /-- A swap would have changed more than the expiry. -/
  | resultChanged
  /-- Every attempt at a conditional write lost its race. -/
  | contention (attempts : Nat)
  /-- A file could not be opened or written. -/
  | io
  deriving DecidableEq, Repr

/-- The words for a store error. -/
def StoreError.message : StoreError → String
  | .backend detail => "store backend error: " ++ detail
  | .codec e => e.message
  | .resultChanged => "stored results are immutable; only the expiry may change"
  | .contention attempts =>
    "conditional write lost " ++ toString attempts ++ " consecutive races"
  | .io => "file not accessible"

/-- The error for a file that is no snapshot. -/
def StoreError.badSnapshot : StoreError := .backend "failed to decode snapshot"

end OnceProxy.Store
