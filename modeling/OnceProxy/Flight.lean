/-
Flights: work on one key that several participants wait for together.

The first to join a key leads its flight and gets the guard; whoever joins
while the guard is outstanding follows. The guard is given back once, with
an outcome or without one, and that ends the flight: its slot is freed and
everyone who joined it learns the same end, whenever they ask. Flights are
numbered, so that a guard can free no slot but its own, and a participant
never learns the end of another flight of the same key.
-/
import OnceProxy.Fingerprint
import OnceProxy.Metrics

namespace OnceProxy

/-- The number of a flight. -/
abbrev FlightId := Nat

/-- How a flight ended. -/
inductive FlightEnd (α : Type) where
  /-- The leader gave an outcome. -/
  | completed (outcome : α)
  /-- The leader gave its guard back without one. -/
  | aborted

/-- What the leader of a flight holds. -/
structure FlightGuard where
  key : EntryKey
  id : FlightId
  deriving DecidableEq

/-- The flights in progress by key, and the ends of those that are over. -/
structure FlightTable (α : Type) where
  slots : List (EntryKey × FlightId)
  nextId : FlightId
  ended : List (FlightId × FlightEnd α)

namespace FlightTable

/-- No flights yet. -/
def empty : FlightTable α := ⟨[], 0, []⟩

/-- Joins the flight of a key, starting it if there is none. -/
def join (t : FlightTable α) (key : EntryKey) : FlightRole × FlightId × FlightTable α :=
  match t.slots.lookup key with
  | some id => (.follower, id, t)
  | none => (.leader, t.nextId, { t with slots := (key, t.nextId) :: t.slots, nextId := t.nextId + 1 })

/-- Ends the flight of a guard. -/
def finish (t : FlightTable α) (g : FlightGuard) (how : FlightEnd α) : FlightTable α :=
  { t with
    slots := t.slots.filter fun p => !(p.1 = g.key && p.2 = g.id)
    ended := (g.id, how) :: t.ended }

/-- The end of a flight, if it is over. -/
def outcome? (t : FlightTable α) (id : FlightId) : Option (FlightEnd α) := t.ended.lookup id

/-- The number of flights in progress. -/
def inFlight (t : FlightTable α) : Nat := t.slots.length

end FlightTable

end OnceProxy
