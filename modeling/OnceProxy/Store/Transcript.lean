/-
Conversations: a dialogue with a counterpart of which nothing is assumed.

`Dialogue.run` lets one backend answer at one instant. A `Counterpart`
answers every query, and every look at the clock, as it pleases, in the
light of all that was said before. A backend whose records are changed by
others in between, a clock that goes back and a backend that is broken are
counterparts like any other. What was said is written down, exchange by
exchange.
-/
import OnceProxy.Store.Dialogue

namespace OnceProxy.Store

-- ============================================================= exchanges

/-- What is said in one step of a dialogue. -/
inductive Exchange where
  /-- The clock was read. -/
  | clock (now : UInt64)
  /-- A query was answered. -/
  | told (q : Query) (answer : q.Answer)
  /-- A query met with an error. -/
  | refused (q : Query) (e : StoreError)

namespace Exchange

/-- The query that was asked. -/
def query? : Exchange → Option Query
  | .clock _ => none
  | .told q _ | .refused q _ => some q

/-- Whether a query of some kind was asked. -/
def asks (kind : Query → Bool) (x : Exchange) : Bool := x.query?.any kind

/-- A conditional write succeeded. -/
def wrote : Exchange → Bool
  | .told (.put ..) (.stored _) | .told (.swap ..) (.swapped _) => true
  | _ => false

/-- A swap found another version than its own. -/
def lost : Exchange → Bool
  | .told (.swap ..) .mismatch => true
  | _ => false

end Exchange

namespace Query

def isPut : Query → Bool
  | .put .. => true
  | _ => false

def isSwap : Query → Bool
  | .swap .. => true
  | _ => false

/-- What a conditional write would leave under which key. -/
def written? : Query → Option (EntryKey × Octets × UInt64)
  | .get _ => none
  | .put key value expiresAt | .swap key _ value expiresAt =>
    some (key, value, expiresAt)

end Query

-- ========================================================== counterparts

/-- The other side of a dialogue: a clock and a backend that know all that
was said before. -/
structure Counterpart where
  clock : List Exchange → UInt64
  answer : List Exchange → (q : Query) → Except StoreError q.Answer

/-- What is said from here on, and what the dialogue ends with. -/
def Dialogue.play (c : Counterpart) :
    Dialogue α → List Exchange → List Exchange × Except StoreError α
  | .done a, _ => ([], .ok a)
  | .fail e, _ => ([], .error e)
  | .clock next, said =>
    let now := c.clock said
    let (rest, r) := (next now).play c (said ++ [.clock now])
    (.clock now :: rest, r)
  | .ask q next, said =>
    match c.answer said q with
    | .ok answer =>
      let (rest, r) := (next answer).play c (said ++ [.told q answer])
      (.told q answer :: rest, r)
    | .error e => ([.refused q e], .error e)

namespace Backend

/-- The state of a backend at an instant after what was said. -/
def after (B : Backend σ) (now : UInt64) : σ → List Exchange → σ
  | s, [] => s
  | s, .clock _ :: said => B.after now s said
  | s, .told q _ :: said | s, .refused q _ :: said =>
    B.after now (B.answer q now s).2 said

theorem after_append (B : Backend σ) (now : UInt64) (s : σ)
    (said more : List Exchange) :
    B.after now s (said ++ more) = B.after now (B.after now s said) more := by
  induction said generalizing s with
  | nil => rfl
  | cons x said ih => cases x <;> exact ih _

/-- A backend that nobody else talks to, at one instant. -/
def counterpart (B : Backend σ) (now : UInt64) (s : σ) : Counterpart where
  clock _ := now
  answer said q := (B.answer q now (B.after now s said)).1

end Backend

end OnceProxy.Store
