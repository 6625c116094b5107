/-
Clients at one store, call by call.

Any number of operations of the cache are under way on one in-memory store.
Each proceeds by single steps, a reading of the clock or one call to the
store, and between two of them anything else may happen: steps of other
operations, sweeps, the passing of time. An operation that is never taken
up again has been given up.
-/
import OnceProxy.Store.Operation

namespace OnceProxy.Store

-- ================================================================ steps

/-- The next step of a dialogue with the in-memory store at an instant; none
if it is over. -/
def Dialogue.step (now : UInt64) (s : MemoryStore) :
    Dialogue α → Option (Dialogue α × MemoryStore)
  | .done _ | .fail _ => none
  | .clock next => some (next now, s)
  | .ask q next => some (next (s.answer q now).1, (s.answer q now).2)

/-- An operation under way, and what is left of its dialogue. -/
structure Client where
  operation : Operation
  rest : Dialogue operation.Result

/-- A store, and the operations under way on it. -/
structure Gathering where
  now : UInt64
  store : MemoryStore
  clients : List Client

/-- What can happen at a store. -/
inductive Action where
  /-- A client begins an operation. -/
  | begin (operation : Operation)
  /-- An operation takes its next step. -/
  | proceed (client : Nat)
  /-- What has expired is dropped. -/
  | sweep
  /-- The clock moves on. -/
  | clock (now : UInt64)

namespace Gathering

/-- Nobody at work on an empty store. -/
def start (now : UInt64) : Gathering := ⟨now, .empty, []⟩

/-- What an action does, where it can happen. The clock never moves back. -/
def step (g : Gathering) : Action → Option Gathering
  | .begin o => some { g with clients := g.clients ++ [⟨o, o.dialogue⟩] }
  | .proceed i => do
    let c ← g.clients[i]?
    let (rest, store) ← c.rest.step g.now g.store
    return { g with store := store, clients := g.clients.set i ⟨c.operation, rest⟩ }
  | .sweep => some { g with store := g.store.purge g.now }
  | .clock now => if g.now ≤ now then some { g with now := now } else none

/-- What a sequence of actions does, where all of them can happen. -/
def run (g : Gathering) (actions : List Action) : Option Gathering :=
  actions.foldlM step g

/-- The number of writes among actions. A write takes a new version, and
nothing else does. -/
def writes (g : Gathering) : List Action → Nat
  | [] => 0
  | a :: actions =>
    match g.step a with
    | none => 0
    | some h => (if h.store.lastVersion = g.store.lastVersion then 0 else 1) + h.writes actions

end Gathering

end OnceProxy.Store
