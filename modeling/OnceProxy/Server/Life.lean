/-
The life of a server, from the first subscription to the snapshot.

Three listen to the shutdown: the server, whose receiver is handed to it when
it is run, and the two tasks that it spawns, the sweeper and the reloader,
each with a receiver of its own that begins when it is spawned. Once the
server has heard a signal and its requests have drained it waits for the
sweeper, then for the reloader, and saves the snapshot last.
-/
import OnceProxy.Shutdown.Broadcast

namespace OnceProxy.Server

/-- What a server spawns beside itself. -/
inductive Task where
  | sweeper
  | reloader
  deriving DecidableEq, Repr

/-- Those who listen to the shutdown. -/
inductive Listener where
  | server
  | task (t : Task)
  deriving DecidableEq, Repr

/-- Where the loop of a listener is. -/
inductive Loop where
  | unborn
  | running (id : SubscriberId)
  | left
  deriving DecidableEq, Repr

/-- How far the server has come. -/
inductive Stage where
  /-- The listener gets its receiver next. -/
  | starting (who : Listener)
  | serving
  /-- No connection is accepted any more. -/
  | draining
  /-- The task has to end first. -/
  | awaiting (t : Task)
  | saving
  | stopped
  deriving DecidableEq, Repr

/-- What can happen in the life of a server. -/
inductive LifeEvent where
  /-- Somebody triggers the shutdown. -/
  | trigger
  /-- Somebody else subscribes. -/
  | visit
  /-- A listener gets its receiver. -/
  | start (who : Listener)
  /-- A listener sees that there was a signal. -/
  | hear (who : Listener)
  /-- A task ends for a reason of its own: there will be no more updates, or
  the interval is none. -/
  | quit (t : Task)
  /-- The last request is answered. -/
  | drain
  /-- The server sees that a task has ended. -/
  | join (t : Task)
  /-- The snapshot is written. -/
  | save
  deriving DecidableEq, Repr

structure Life where
  shutdown : Shutdown
  stage : Stage
  loop : Listener → Loop

namespace Stage

/-- What follows when a listener has got its receiver. -/
def afterStart : Listener → Stage
  | .server => .starting (.task .sweeper)
  | .task .sweeper => .starting (.task .reloader)
  | .task .reloader => .serving

/-- What follows when a listener leaves its loop. -/
def afterHear (stage : Stage) : Listener → Stage
  | .server => .draining
  | .task _ => stage

/-- What follows when a task has been waited for. -/
def afterJoin : Task → Stage
  | .sweeper => .awaiting .reloader
  | .reloader => .saving

end Stage

namespace Life

/-- A channel, and nobody who listens. -/
def new : Life := ⟨.start, .starting .server, fun _ => .unborn⟩

/-- Puts the loop of a listener elsewhere. -/
def setLoop (l : Life) (who : Listener) (loop : Loop) : Life :=
  { l with loop := fun w => if w = who then loop else l.loop w }

/-- A listener leaves its loop, and its receiver is dropped. -/
def leave (l : Life) (who : Listener) (id : SubscriberId) : Life :=
  { l.setLoop who .left with shutdown := l.shutdown.unsubscribe id }

/-- Whether a listener looks at its receiver: tasks always do, the server
while it serves. -/
def listens (l : Life) : Listener → Bool
  | .server => l.stage = .serving
  | .task _ => true

/-- What an event does, where it can happen. -/
def step (l : Life) : LifeEvent → Option Life
  | .trigger => some { l with shutdown := l.shutdown.trigger }
  | .visit => some { l with shutdown := l.shutdown.subscribe.2 }
  | .start who =>
    if l.stage = .starting who then
      let (id, shutdown) := l.shutdown.subscribe
      some { l.setLoop who (.running id) with shutdown, stage := .afterStart who }
    else none
  | .hear who =>
    match l.loop who with
    | .running id =>
      if l.listens who then do
        let (receipt, shutdown) ← l.shutdown.receive id
        if receipt = .pending then none
        else return { { l with shutdown }.leave who id with stage := l.stage.afterHear who }
      else none
    | .unborn | .left => none
  | .quit t =>
    match l.loop (.task t) with
    | .running id => some (l.leave (.task t) id)
    | .unborn | .left => none
  | .drain => if l.stage = .draining then some { l with stage := .awaiting .sweeper } else none
  | .join t =>
    if l.stage = .awaiting t ∧ l.loop (.task t) = .left then
      some { l with stage := .afterJoin t }
    else none
  | .save => if l.stage = .saving then some { l with stage := .stopped } else none

/-- What a sequence of events does, where all of them can happen. -/
def run (l : Life) (events : List LifeEvent) : Option Life := events.foldlM step l

/-- A listener has left its loop, or has a signal before it that it has not
seen. -/
def Alerted (l : Life) (who : Listener) : Prop :=
  l.loop who = .left
    ∨ ∃ id unread, l.loop who = .running id ∧ l.shutdown.unread? id = some unread ∧ 0 < unread

end Life

end OnceProxy.Server
