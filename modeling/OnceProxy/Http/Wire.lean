/-
Messages as a connection carries them.

Blanks around a value are lost on the way. Some responses never have a body,
whatever was given: those to a question for the head alone, and those whose
status says so. A server does not send informational statuses as responses:
it says that it failed. The length that a request announces says how much of
what follows is its body.
-/
import OnceProxy.Http.Hygiene
import OnceProxy.Http.Method
import OnceProxy.Http.Response
import OnceProxy.Text.Decimal

namespace OnceProxy.Http

-- ============================================================== values

/-- Space or tab, as an octet. -/
def isBlankOctet (o : UInt8) : Bool := o == 32 || o == 9

/-- The value without blanks around it. -/
def FieldValue.trimmed (v : FieldValue) : FieldValue :=
  let trimFront (b : Octets) := b.dropWhile isBlankOctet
  (FieldValue.ofOctets? (trimFront (trimFront v.octets).reverse).reverse).getD v

/-- The fields without blanks around their values. -/
def Headers.onWire (h : Headers) : Headers := ⟨h.fields.map fun f => (f.1, f.2.trimmed)⟩

-- ============================================================== bodies

/-- Whether a status only informs, and the response is still to come. -/
def Status.isInformational (s : Status) : Bool := s.code < 200

/-- Whether the response to a method may have a body. -/
def mayHaveBody (m : Method) (s : Status) : Bool :=
  m.text != "HEAD" && !s.isInformational && s.code != 204 && s.code != 304

/-- What comes through of a response to a method. -/
def Response.onWire (r : Response) (m : Method) : Response :=
  if r.status.isInformational then .bare ⟨500, by decide, by decide⟩
  else ⟨r.status, r.headers.onWire, if mayHaveBody m r.status then r.body else []⟩

/-- The length that a request announces, where its announcements are numbers
and agree. -/
def announcedLength (h : Headers) : Except Unit (Option Nat) :=
  (h.values .contentLength).foldlM (fun known v =>
    match (v.text?.bind fun s => Text.Decimal.ofDigits? s.toList), known with
    | some n, none => .ok (some n)
    | some n, some m => if n = m then .ok known else .error ()
    | none, _ => .error ()) none

/-- The body among the octets that follow a request's head, and whether all
of it is there. -/
def framedBody (h : Headers) (sent : Octets) : Except Unit (Octets × Bool) := do
  match ← announcedLength h with
  | none => return (sent, true)
  | some n => return (sent.take n, decide (n ≤ sent.length))

end OnceProxy.Http
