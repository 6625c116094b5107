/-
Dialogues: programs that talk to a key-value store.

A dialogue asks one query at a time, reads the clock, and ends with a
result or an error. It says nothing about what answers it: `run` answers
from a backend at one instant, and other interpreters may put other
clients' queries, sweeps and the passing of time between any two of its
steps. An error of the backend ends the dialogue.
-/
import OnceProxy.Metrics
import OnceProxy.Store.Memory

namespace OnceProxy.Store

-- =============================================================== queries

/-- A query to a key-value store. -/
inductive Query where
  | get (key : EntryKey)
  | put (key : EntryKey) (value : Octets) (expiresAt : UInt64)
  | swap (key : EntryKey) (version : UInt64) (value : Octets) (expiresAt : UInt64)
  deriving DecidableEq

namespace Query

/-- The type of the answer to a query. -/
def Answer : Query → Type
  | .get _ => Option Versioned
  | .put .. => PutAnswer
  | .swap .. => SwapAnswer

/-- The name under which a query's errors are counted. -/
def operation : Query → String
  | .get _ => "get"
  | .put .. => "put_if_absent"
  | .swap .. => "compare_and_swap"

end Query

-- ============================================================= dialogues

/-- A program that talks to a key-value store. -/
inductive Dialogue (α : Type) where
  /-- Ends with a result. -/
  | done (a : α)
  /-- Ends with an error. -/
  | fail (e : StoreError)
  /-- Reads the clock. -/
  | clock (next : UInt64 → Dialogue α)
  /-- Asks a query. -/
  | ask (q : Query) (next : q.Answer → Dialogue α)

namespace Dialogue

/-- Goes on with a second dialogue. -/
def bind : Dialogue α → (α → Dialogue β) → Dialogue β
  | .done a, f => f a
  | .fail e, _ => .fail e
  | .clock next, f => .clock fun now => (next now).bind f
  | .ask q next, f => .ask q fun answer => (next answer).bind f

instance : Monad Dialogue where
  pure := .done
  bind := bind

/-- Reads the clock. -/
def now : Dialogue UInt64 := .clock .done

/-- Asks a query. -/
def query (q : Query) : Dialogue q.Answer := .ask q .done

end Dialogue

-- ============================================================== backends

/-- Something that answers queries. -/
structure Backend (σ : Type) where
  /-- The answer at an instant, and the state after it. -/
  answer : (q : Query) → UInt64 → σ → Except StoreError q.Answer × σ
  /-- The size to report after the answer, if the query makes one known. -/
  report : Query → UInt64 → σ → Option Nat
  /-- The state after what has expired is dropped. -/
  sweep : UInt64 → σ → σ
  /-- The number of records. -/
  size : σ → Nat

namespace MemoryStore

/-- The answer of the in-memory store. -/
def answer (q : Query) (now : UInt64) (s : MemoryStore) : q.Answer × MemoryStore :=
  match q with
  | .get key => (s.get now key, s)
  | .put key value expiresAt => s.putIfAbsent now key value expiresAt
  | .swap key version value expiresAt => s.compareAndSwap key version value expiresAt

/-- The size that a put to the in-memory store makes known. -/
def reportOf (q : Query) (now : UInt64) (s : MemoryStore) : Option Nat :=
  match q with
  | .put .. => some (s.answer q now).2.size
  | _ => none

/-- The in-memory store as a backend, which never fails. -/
def backend : Backend MemoryStore where
  answer q now s := let (a, s) := s.answer q now; (.ok a, s)
  report q now s := s.reportOf q now
  sweep now s := s.purge now
  size := size

end MemoryStore

namespace Dialogue

/-- Runs a dialogue at one instant, counting the errors of the backend. -/
def run (B : Backend σ) (now : UInt64) :
    Dialogue α → σ × Metrics → Except StoreError α × (σ × Metrics)
  | .done a, s => (.ok a, s)
  | .fail e, s => (.error e, s)
  | .clock next, s => (next now).run B now s
  | .ask q next, (s, m) =>
    let m := match B.report q now s with
      | some n => m.setEntries n
      | none => m
    match B.answer q now s with
    | (.ok answer, s) => (next answer).run B now (s, m)
    | (.error e, s) => (.error e, (s, m.bump (.storeErrors q.operation)))

end Dialogue

/-- Sweeps a store and reports its size. -/
def Backend.sweepAndReport (B : Backend σ) (now : UInt64) (s : σ × Metrics) : σ × Metrics :=
  let store := B.sweep now s.1
  (store, s.2.setEntries (B.size store))

end OnceProxy.Store
