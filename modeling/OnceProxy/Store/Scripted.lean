/-
A backend whose next answers can be laid down in advance.

Each kind of query has a queue. A query takes the first element of its
queue: an answer that is given instead of the in-memory store's, or a mark
that the in-memory store shall answer, as it does when the queue is empty.
-/
import OnceProxy.Store.Dialogue

namespace OnceProxy.Store

/-- An in-memory store behind queues of answers. -/
structure ScriptedStore where
  memory : MemoryStore
  gets : List (Option (Except StoreError (Option Versioned)))
  puts : List (Option (Except StoreError PutAnswer))
  swaps : List (Option (Except StoreError SwapAnswer))

namespace ScriptedStore

/-- An empty store and empty queues. -/
def empty : ScriptedStore := ⟨.empty, [], [], []⟩

/-- Adds answers at the end of the queues. -/
def lay (s : ScriptedStore) (gets : List (Option (Except StoreError (Option Versioned))))
    (puts : List (Option (Except StoreError PutAnswer)))
    (swaps : List (Option (Except StoreError SwapAnswer))) : ScriptedStore :=
  { s with gets := s.gets ++ gets, puts := s.puts ++ puts, swaps := s.swaps ++ swaps }

/-- The answer laid down for a query, and the queues without it. -/
def next (s : ScriptedStore) : (q : Query) → Option (Except StoreError q.Answer) × ScriptedStore
  | .get _ => (s.gets.head?.join, { s with gets := s.gets.tail })
  | .put .. => (s.puts.head?.join, { s with puts := s.puts.tail })
  | .swap .. => (s.swaps.head?.join, { s with swaps := s.swaps.tail })

/-- The scripted store as a backend. -/
def backend : Backend ScriptedStore where
  answer q now s :=
    match s.next q with
    | (some r, s) => (r, s)
    | (none, s) =>
      let (a, memory) := s.memory.answer q now
      (.ok a, { s with memory := memory })
  report q now s :=
    match s.next q with
    | (some _, _) => none
    | (none, s) => s.memory.reportOf q now
  sweep now s := { s with memory := s.memory.purge now }
  size s := s.memory.size

end ScriptedStore

end OnceProxy.Store
