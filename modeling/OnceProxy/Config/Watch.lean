/-
Watching a configuration file.

The file is loaded anew after everything that may have changed it, a change
of its contents or of its attributes, whether or not anything in it differs.
Contents that do not load deliver nothing, so what was delivered last is the
last good configuration.
-/
import OnceProxy.Config.Load

namespace OnceProxy.Config

/-- What happens to a watched file. -/
inductive FileEvent where
  /-- Its contents are overwritten. -/
  | written (contents : Octets)
  /-- Its attributes change. -/
  | touched
  /-- Somebody reads it. -/
  | read
  deriving DecidableEq, Repr

namespace FileEvent

/-- The contents after an event. -/
def contentsAfter (contents : Octets) : FileEvent → Octets
  | .written new => new
  | .touched | .read => contents

/-- Whether the file is loaded anew after an event. -/
def isChange : FileEvent → Bool
  | .written _ | .touched => true
  | .read => false

/-- The configuration that an event delivers. -/
def delivers (contents : Octets) (e : FileEvent) : Option ProxyConfig :=
  if e.isChange then (load (some (e.contentsAfter contents))).toOption else none

end FileEvent

/-- What the events of a file deliver, one after the other. -/
def watch (contents : Octets) : List FileEvent → List (Option ProxyConfig)
  | [] => []
  | e :: es => e.delivers contents :: watch (e.contentsAfter contents) es

end OnceProxy.Config
