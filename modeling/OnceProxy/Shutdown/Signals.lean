/-
Signals to the process.

The first signal to interrupt or to terminate the process triggers the
shutdown. The listener is gone then: later signals do nothing.
-/
import OnceProxy.Shutdown.Broadcast

namespace OnceProxy

/-- A signal to the process. -/
inductive ProcessSignal where
  | interrupt
  | terminate
  deriving DecidableEq, Repr

/-- The broadcast, and whether somebody waits for a signal to trigger it. -/
structure SignalListener where
  shutdown : Shutdown
  isArmed : Bool

namespace SignalListener

/-- Waits for a signal. -/
def install (s : Shutdown) : SignalListener := ⟨s, true⟩

/-- A signal comes in. -/
def raise (l : SignalListener) (_ : ProcessSignal) : SignalListener :=
  if l.isArmed then ⟨l.shutdown.trigger, false⟩ else l

/-- Somebody else triggers the shutdown. -/
def trigger (l : SignalListener) : SignalListener := { l with shutdown := l.shutdown.trigger }

end SignalListener

end OnceProxy
