/-
The shutdown broadcast: one sender, any number of subscribers.

A subscriber sees exactly the signals sent after it subscribed. Of the
signals that it has not seen yet only the newest is kept; how many others
there were is reported once, before that one is delivered.
-/
namespace OnceProxy

/-- The number of a subscriber. -/
abbrev SubscriberId := Nat

/-- The signals sent so far, and who listens to them. -/
structure Shutdown where
  sent : Nat
  /-- The subscribers, and how many of the signals each has behind it. -/
  subscribers : List (SubscriberId × Nat)
  /-- The number of the next subscriber. -/
  nextId : SubscriberId

/-- What a subscriber finds when it looks. -/
inductive Receipt where
  | pending
  | signal
  /-- Signals were lost; the newest comes next. -/
  | lagged (lost : Nat)
  deriving DecidableEq, Repr

namespace Shutdown

/-- Nothing sent, and nobody who listens. -/
def start : Shutdown := ⟨0, [], 0⟩

/-- A new subscriber, which has all signals of the past behind it. -/
def subscribe (s : Shutdown) : SubscriberId × Shutdown :=
  (s.nextId, { s with
    subscribers := (s.nextId, s.sent) :: s.subscribers
    nextId := s.nextId + 1 })

/-- A subscriber goes away. -/
def unsubscribe (s : Shutdown) (id : SubscriberId) : Shutdown :=
  { s with subscribers := s.subscribers.filter (·.1 ≠ id) }

/-- Sends a signal to all who listen now. -/
def trigger (s : Shutdown) : Shutdown := { s with sent := s.sent + 1 }

/-- The number of those who listen. -/
def subscriberCount (s : Shutdown) : Nat := s.subscribers.length

/-- The number of signals that a subscriber has still before it. -/
def unread? (s : Shutdown) (id : SubscriberId) : Option Nat :=
  (s.subscribers.lookup id).map (s.sent - ·)

/-- Moves a subscriber on, past all signals but the last `left`. -/
def moveOn (s : Shutdown) (id : SubscriberId) (left : Nat) : Shutdown :=
  { s with subscribers := s.subscribers.map fun p => if p.1 = id then (id, s.sent - left) else p }

/-- A subscriber looks. -/
def receive (s : Shutdown) (id : SubscriberId) : Option (Receipt × Shutdown) :=
  (s.unread? id).map fun unread =>
    if unread = 0 then (.pending, s)
    else if unread = 1 then (.signal, s.moveOn id 0)
    else (.lagged (unread - 1), s.moveOn id 1)

end Shutdown

end OnceProxy
