/-
Crews: named participants of flights.

A participant holds the guard of a flight that it leads, and remembers the
flight that it joined last. Whoever takes up a second guard lets go of the
first; whoever lets go of a guard without an outcome aborts the flight.
-/
import OnceProxy.Flight

namespace OnceProxy

/-- A flight table, the guards outstanding, and the flights that the
participants remember. -/
structure Crew (α : Type) where
  table : FlightTable α
  guards : List (String × FlightGuard)
  joined : List (String × FlightId)

namespace Crew

/-- Nobody yet. -/
def empty : Crew α := ⟨.empty, [], []⟩

/-- A participant ends the flight whose guard it holds, if it holds one. -/
def finish (c : Crew α) (name : String) (how : FlightEnd α) : Bool × Crew α :=
  match c.guards.lookup name with
  | none => (false, c)
  | some g => (true, { c with
      table := c.table.finish g how
      guards := c.guards.filter (·.1 ≠ name) })

/-- A participant joins the flight of a key. -/
def join (c : Crew α) (name : String) (key : EntryKey) : FlightRole × Crew α :=
  let (role, id, table) := c.table.join key
  let c := { c with table, joined := (name, id) :: c.joined.filter (·.1 ≠ name) }
  match role with
  | .follower => (.follower, c)
  | .leader =>
    let (_, c) := c.finish name .aborted
    (.leader, { c with guards := (name, ⟨key, id⟩) :: c.guards })

/-- What a participant learns of the flight it joined: whether it joined one,
and whether that is over. -/
def await (c : Crew α) (name : String) : Option (Option (FlightEnd α)) :=
  (c.joined.lookup name).map c.table.outcome?

end Crew

end OnceProxy
