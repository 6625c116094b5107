/-
The sink of log lines. A process has at most one: the first that is
installed stays, and every further one is refused.
-/
import OnceProxy.Config.Schema

namespace OnceProxy

/-- The sink of a process, if one has been installed. -/
structure LogSink where
  installed : Option Config.Observability

/-- Why a sink is refused. -/
inductive LogSinkError where
  | taken
  deriving DecidableEq, Repr

/-- The words for a refusal. -/
def LogSinkError.message : LogSinkError → String
  | .taken => "a global default trace dispatcher has already been set"

namespace LogSink

/-- No sink yet. -/
def none : LogSink := ⟨.none⟩

/-- Installs a sink. -/
def install (s : LogSink) (c : Config.Observability) : Except LogSinkError LogSink :=
  if s.installed.isSome then .error .taken else .ok ⟨some c⟩

end LogSink

end OnceProxy
