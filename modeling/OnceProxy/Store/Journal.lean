/-
The calls to the in-memory store, one by one, and what they were answered.

A journal lists calls in the order in which they were served, each with its
instant and its answer. It can be read without the store: which record a
call has written, which value a call has shown under a version, and which
write under a key is the last one and has not been purged since.
-/
import OnceProxy.Store.Checked

namespace OnceProxy.Store

/-- A call to the in-memory store. -/
inductive Call where
  /-- A query of a client. -/
  | ask (q : Query)
  /-- What has expired is dropped. -/
  | purge
  deriving DecidableEq

/-- The type of the answer to a call; a purge tells how much it dropped. -/
def Call.Answer : Call → Type
  | .ask q => q.Answer
  | .purge => Nat

/-- A call with its instant and its answer. -/
structure Receipt where
  now : UInt64
  call : Call
  answer : call.Answer

namespace Receipt

/-- The record that a call has written, with its key. -/
def written? : Receipt → Option (EntryKey × Record)
  | ⟨_, .ask (.put key value expiresAt), .stored version⟩ =>
    some (key, ⟨value, version, expiresAt⟩)
  | ⟨_, .ask (.swap key _ value expiresAt), .swapped version⟩ =>
    some (key, ⟨value, version, expiresAt⟩)
  | _ => none

/-- What a call has shown its client of a key: a value under a version, read
or written. -/
def shown? : Receipt → Option (EntryKey × Versioned)
  | ⟨_, .ask (.get key), some found⟩ => some (key, found)
  | ⟨_, .ask (.put key value _), .stored version⟩ => some (key, ⟨value, version⟩)
  | ⟨_, .ask (.put key _ _), .held occupant⟩ => some (key, occupant)
  | ⟨_, .ask (.swap key _ value _), .swapped version⟩ => some (key, ⟨value, version⟩)
  | _ => none

end Receipt

/-- The record was written by the last write to the key in a journal, and has
not been purged since. -/
def Standing (journal : List Receipt) (key : EntryKey) (r : Record) : Prop :=
  ∃ before x after, journal = before ++ x :: after
    ∧ x.written? = some (key, r)
    ∧ ∀ y ∈ after, (∀ r', y.written? ≠ some (key, r'))
      ∧ (y.call = .purge → y.now < r.expiresAt)

namespace MemoryStore

/-- The answer to a call at an instant, and the store after it. -/
def serve (s : MemoryStore) (now : UInt64) : (c : Call) → c.Answer × MemoryStore
  | .ask q => s.answer q now
  | .purge => (s.expiredCount now, s.purge now)

/-- The store after calls, each at its instant. -/
def after (s : MemoryStore) (calls : List (UInt64 × Call)) : MemoryStore :=
  calls.foldl (fun s x => (s.serve x.1 x.2).2) s

/-- The journal of calls, each at its instant. -/
def journal (s : MemoryStore) : List (UInt64 × Call) → List Receipt
  | [] => []
  | (now, c) :: calls =>
    ⟨now, c, (s.serve now c).1⟩ :: journal (s.serve now c).2 calls

/-- The answer to a call, if it does not die of the last version, and the
store after it. -/
def serve? (s : MemoryStore) (now : UInt64) : (c : Call) → Option c.Answer × MemoryStore
  | .ask q => s.answer? q now
  | .purge => (some (s.expiredCount now), s.purge now)

/-- The journal of calls, if none of them dies. -/
def journal? (s : MemoryStore) : List (UInt64 × Call) → Option (List Receipt)
  | [] => some []
  | (now, c) :: calls => do
    let answer ← (s.serve? now c).1
    let rest ← journal? (s.serve? now c).2 calls
    return ⟨now, c, answer⟩ :: rest

end MemoryStore

end OnceProxy.Store
