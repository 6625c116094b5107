/-
The operations of the cache under one type, each with the type of its
result.
-/
import OnceProxy.Store.Cache

namespace OnceProxy.Store

/-- An operation of the cache. -/
inductive Operation where
  | get (key : EntryKey)
  | getVersioned (key : EntryKey)
  | putIfAbsent (key : EntryKey) (entry : Entry)
  | compareAndSwap (key : EntryKey) (version : UInt64) (entry : Entry)
  | refresh (key : EntryKey) (duration : Nat)

namespace Operation

/-- The key it is about. -/
def key : Operation → EntryKey
  | .get key | .getVersioned key | .putIfAbsent key _
  | .compareAndSwap key _ _ | .refresh key _ => key

/-- What an operation gives. -/
def Result : Operation → Type
  | .get _ => Option Entry
  | .getVersioned _ => Option StoredEntry
  | .putIfAbsent .. => PutOutcome
  | .compareAndSwap .. => SwapOutcome
  | .refresh .. => Option SwapOutcome

/-- How an operation talks to the key-value store. -/
def dialogue : (o : Operation) → Dialogue o.Result
  | .get key => Cache.get key
  | .getVersioned key => Cache.getVersioned key
  | .putIfAbsent key entry => Cache.putIfAbsent key entry
  | .compareAndSwap key version entry => Cache.compareAndSwap key version entry
  | .refresh key duration => Cache.refresh key duration

end Operation

end OnceProxy.Store
