/-
Traffic at a flight table, call by call.

Whoever joins a flight gets a handle of it, and its leader a guard as well.
A handle can be copied, and waited on at any time, before the end of its
flight or long after. A wait uses its handle up; it is over once the flight
is, and may be given up before. A guard ends its flight in one of two ways:
it is completed with an outcome, or dropped without one.

Completing shows the outcome first and then frees the slot, dropping frees
the slot first and then shows the abort. Both leave what `finish` leaves.
-/
import OnceProxy.Flight

namespace OnceProxy

namespace FlightTable

/-- Frees the slot of a guard. A later flight may own the key; it keeps its
slot. -/
def release (t : FlightTable α) (g : FlightGuard) : FlightTable α :=
  { t with slots := t.slots.filter fun p => !(p.1 = g.key && p.2 = g.id) }

/-- Shows the end of a flight to its handles. -/
def publish (t : FlightTable α) (id : FlightId) (how : FlightEnd α) : FlightTable α :=
  { t with ended := (id, how) :: t.ended }

def complete (t : FlightTable α) (g : FlightGuard) (outcome : α) : FlightTable α :=
  (t.publish g.id (.completed outcome)).release g

def abandon (t : FlightTable α) (g : FlightGuard) : FlightTable α :=
  (t.release g).publish g.id .aborted

theorem complete_eq (t : FlightTable α) (g : FlightGuard) (outcome : α) :
    t.complete g outcome = t.finish g (.completed outcome) := rfl

theorem abandon_eq (t : FlightTable α) (g : FlightGuard) :
    t.abandon g = t.finish g .aborted := rfl

end FlightTable

/-- A flight table, and what its users hold: the guards outstanding, the
handles, the handles that are being waited on, and what the waits have
yielded. -/
structure Traffic (α : Type) where
  table : FlightTable α
  guards : List FlightGuard
  handles : List FlightId
  waits : List FlightId
  heard : List (FlightId × FlightEnd α)

namespace Traffic

/-- What a user of a flight table can do. -/
inductive Act (α : Type) where
  | join (key : EntryKey)
  | complete (guard : FlightGuard) (outcome : α)
  | drop (guard : FlightGuard)
  /-- A handle is copied. -/
  | clone (handle : FlightId)
  /-- A handle is dropped. -/
  | discard (handle : FlightId)
  /-- A handle is waited on from now on. -/
  | wait (handle : FlightId)
  /-- A wait is over. -/
  | hear (handle : FlightId)
  /-- A wait is given up. -/
  | forsake (handle : FlightId)

/-- Nobody yet. -/
def empty : Traffic α := ⟨.empty, [], [], [], []⟩

/-- What an act does, where it can happen: guards and handles are used by
those who hold them, and a guard can be given back once. -/
def step (t : Traffic α) : Act α → Option (Traffic α)
  | .join key =>
    let (role, id, table) := t.table.join key
    some { t with
      table := table
      guards := match role with
        | .leader => ⟨key, id⟩ :: t.guards
        | .follower => t.guards
      handles := id :: t.handles }
  | .complete g outcome =>
    if g ∈ t.guards then
      some { t with table := t.table.complete g outcome, guards := t.guards.erase g }
    else none
  | .drop g =>
    if g ∈ t.guards then
      some { t with table := t.table.abandon g, guards := t.guards.erase g }
    else none
  | .clone h => if h ∈ t.handles then some { t with handles := h :: t.handles } else none
  | .discard h =>
    if h ∈ t.handles then some { t with handles := t.handles.erase h } else none
  | .wait h =>
    if h ∈ t.handles then
      some { t with handles := t.handles.erase h, waits := h :: t.waits }
    else none
  | .hear h =>
    if h ∈ t.waits then do
      let how ← t.table.outcome? h
      return { t with waits := t.waits.erase h, heard := t.heard ++ [(h, how)] }
    else none
  | .forsake h => if h ∈ t.waits then some { t with waits := t.waits.erase h } else none

/-- What a sequence of acts does, where all of them can happen. -/
def run (t : Traffic α) (acts : List (Act α)) : Option (Traffic α) := acts.foldlM step t

/-- Every handle in use: held, waited on, or used up by a wait. -/
def inUse (t : Traffic α) : List FlightId := t.handles ++ t.waits ++ t.heard.map (·.1)

end Traffic

end OnceProxy
