/-
Rehearsals: the proxy with an origin that follows a script, in virtual time.

A rehearsal decides in which order the events of the transition system
happen; what they do is `System.step` alone. All that can happen at an
instant happens before time moves on. First the callers get on, in the
order of their list; then the calls that are due, the older before the
newer, and the leaders that have not run yet. When nobody can get on, time
moves to the next instant at which somebody can.
-/
import OnceProxy.Proxy.System

namespace OnceProxy.Proxy

open Http Origin Store

-- =============================================================== scripts

/-- How a scripted origin treats a call. -/
inductive Treatment where
  /-- It replies. -/
  | reply (r : Reply)
  /-- Whoever made the call dies. -/
  | crash

/-- A treatment and the milliseconds before it. -/
structure ScriptedReply where
  delay : Nat
  treatment : Treatment

/-- A call that the origin will treat at an instant. -/
structure DueCall where
  call : CallId
  due : Nat
  treatment : Treatment

/-- How an origin will treat a call, given the calls before it. -/
abbrev CallPlan := (before : List Outbound) → Outbound → Option ScriptedReply

/-- The element at a place of a script, the last of which repeats. -/
def scripted? (script : List α) (n : Nat) : Option α := script[n]?.or script.getLast?

/-- Treats the calls in order as a script says. -/
def inOrder (script : List ScriptedReply) : CallPlan := fun before _ => scripted? script before.length

/-- The proxy and its scripted origin. -/
structure Rehearsal (σ : Type) where
  system : System σ
  plan : CallPlan
  /-- Whether the wall clock moves with time. -/
  clockRuns : Bool
  /-- The calls that the origin has not treated yet, oldest first. -/
  due : List DueCall
  /-- The number of the next caller. -/
  nextCaller : CallerId
  /-- Whether a caller without key met a call that kills its maker. -/
  broken : Bool

/-- A request of a concurrent group: when it starts and when its caller
leaves, counted from the start of the group. -/
structure Participant where
  site : Nat
  request : Incoming
  start : Nat
  leaves : Option Nat

/-- How far a participant has got. -/
inductive Progress where
  | unborn
  | waiting (caller : CallerId)
  | replied (r : Except ProxyError Replay)
  | cancelled

namespace Rehearsal

/-- A system and a plan, before the first step. -/
def start (s : System σ) (plan : CallPlan) (clockRuns : Bool) : Rehearsal σ :=
  ⟨s, plan, clockRuns, [], 0, false⟩

/-- Lets an event happen, and plans the treatment of the calls it makes. -/
def perform (r : Rehearsal σ) (B : Backend σ) (e : Event) : Rehearsal σ :=
  match r.system.step B e with
  | none => r
  | some s =>
    let made := (List.range s.calls.length).drop r.system.calls.length
    let plan (call : CallId) : Option DueCall := do
      let scripted ← r.plan (s.calls.take call) (← s.calls[call]?)
      return ⟨call, s.elapsed + scripted.delay, scripted.treatment⟩
    { r with system := s, due := r.due ++ made.filterMap plan }

/-- The reply to a caller, if it has one. -/
def replyTo? (r : Rehearsal σ) (caller : CallerId) : Option (Except ProxyError Replay) :=
  r.system.replies.lookup caller

/-- Treats a call. -/
def treat (r : Rehearsal σ) (B : Backend σ) (d : DueCall) : Rehearsal σ :=
  let r := { r with due := r.due.filter (·.call ≠ d.call) }
  match d.treatment with
  | .reply reply => r.perform B (.answer d.call reply)
  | .crash =>
    match r.system.leaderOf d.call with
    | some l => r.perform B (.crash l.site l.guard.id)
    | none => if (r.system.passerOf d.call).isSome then { r with broken := true } else r

/-- Lets a call get on: a treatment that is due comes before the deadline. -/
def advanceCall (r : Rehearsal σ) (B : Backend σ) (c : OpenCall) : Rehearsal σ :=
  let now := r.system.elapsed
  match r.due.find? fun d => d.call = c.call && d.due ≤ now with
  | some d => r.treat B d
  | none =>
    if c.deadline ≤ now then
      { r with due := r.due.filter (·.call ≠ c.call) }.perform B (.timeout c.call)
    else r

/-- Lets a leader get on. -/
def advanceLeader (r : Rehearsal σ) (B : Backend σ) (site : Nat) (flight : FlightId) : Rehearsal σ :=
  let r :=
    match r.system.findLeader site flight with
    | some ⟨_, _, _, _, none⟩ => r.perform B (.lead site flight)
    | _ => r
  match (r.system.findLeader site flight).bind (·.waiting) with
  | some c => r.advanceCall B c
  | none => r

/-- Lets the leaders get on, those that wait for calls before new ones. -/
def advanceLeaders (r : Rehearsal σ) (B : Backend σ) : Rehearsal σ :=
  let waiting := r.system.leaders.filter (·.waiting.isSome)
  let fresh := r.system.leaders.filter (·.waiting.isNone)
  (waiting ++ fresh).foldl (fun r l => r.advanceLeader B l.site l.guard.id) r

/-- Lets a caller that waits get on, as far as it can. -/
def advanceCaller (r : Rehearsal σ) (B : Backend σ) (caller : CallerId) : Rehearsal σ :=
  let r := r.perform B (.wake caller)
  match r.system.passers.find? (·.caller = caller) with
  | some p => r.advanceCall B p.waiting
  | none => r

/-- Lets a participant get on: it starts, waits, and leaves when its time has
come and it has no reply. -/
def advanceParticipant (r : Rehearsal σ) (B : Backend σ) (base : Nat) (p : Participant)
    (progress : Progress) (caller : CallerId) : Rehearsal σ × Progress :=
  let now := r.system.elapsed
  let (r, progress) : Rehearsal σ × Progress :=
    match progress with
    | .unborn =>
      if base + p.start ≤ now then
        ((r.perform B (.arrive p.site caller p.request)).advanceCaller B caller, .waiting caller)
      else (r, progress)
    | .waiting caller => (r.advanceCaller B caller, progress)
    | progress => (r, progress)
  let settled : Progress :=
    match progress with
    | .waiting caller =>
      match r.replyTo? caller with
      | some reply => .replied reply
      | none => progress
    | progress => progress
  let leaves := p.leaves.any (base + · ≤ now)
  match settled, leaves with
  | .unborn, true => (r, .cancelled)
  | .waiting caller, true => (r.perform B (.leave caller), .cancelled)
  | settled, _ => (r, settled)

/-- Whether a participant is done. -/
def isDone : Progress → Bool
  | .replied _ | .cancelled => true
  | _ => false

/-- Lets every participant get on, in order. -/
def advanceAll (B : Backend σ) (base firstCaller : Nat) :
    Nat → List (Participant × Progress) → Rehearsal σ → Rehearsal σ × List (Participant × Progress)
  | _, [], r => (r, [])
  | i, (p, progress) :: rest, r =>
    let (r, progress) :=
      if isDone progress then (r, progress)
      else r.advanceParticipant B base p progress (firstCaller + i)
    let (r, rest) := advanceAll B base firstCaller (i + 1) rest r
    (r, (p, progress) :: rest)

/-- The instants after now at which somebody may get on. -/
def instants (r : Rehearsal σ) (base : Nat) (ps : List (Participant × Progress)) : List Nat :=
  let deadlines := (r.system.leaders.filterMap (·.waiting)).map (·.deadline) ++
    r.system.passers.map (·.waiting.deadline)
  let own := ps.flatMap fun (p, progress) =>
    match progress with
    | .unborn => (base + p.start) :: (p.leaves.map (base + ·)).toList
    | .waiting _ => (p.leaves.map (base + ·)).toList
    | _ => []
  (r.due.map (·.due) ++ deadlines ++ own).filter (r.system.elapsed < ·)

/-- Moves time to an instant. -/
def moveTo (r : Rehearsal σ) (B : Backend σ) (instant : Nat) : Rehearsal σ :=
  let ms := instant - r.system.elapsed
  let r := r.perform B (.elapse ms)
  if r.clockRuns then r.perform B (.advance ms) else r

/-- A measure of what has happened, to tell whether anything did. -/
def activity (r : Rehearsal σ) : Nat × Nat × Nat × Nat :=
  (r.system.calls.length, r.system.replies.length, r.system.leaders.length, r.due.length)

/-- Lets the leaders get on until none of them can. -/
def settleLeaders (B : Backend σ) : (fuel : Nat) → Rehearsal σ → Rehearsal σ
  | 0, r => r
  | fuel + 1, r =>
    let next := r.advanceLeaders B
    if next.activity = r.activity then next else settleLeaders B fuel next

/-- Plays a group of participants until all of them are done. Every round
either lets somebody get on or moves time to an instant that is planned. -/
def play (B : Backend σ) (base firstCaller : Nat) :
    (fuel : Nat) → Rehearsal σ → List (Participant × Progress) →
      Rehearsal σ × List (Participant × Progress)
  | 0, r, ps => (r, ps)
  | fuel + 1, r, ps =>
    let (r, ps) := advanceAll B base firstCaller 0 ps r
    if ps.all (isDone ·.2) || r.broken then (r, ps)
    else
      let before := r.activity
      let r := settleLeaders B (r.system.leaders.length + 1) r
      if r.activity ≠ before then play B base firstCaller fuel r ps
      else
        match (r.instants base ps).min? with
        | some instant => play B base firstCaller fuel (r.moveTo B instant) ps
        | none => (r, ps)

/-- The rounds that a group may take. -/
def roundBound (r : Rehearsal σ) (n : Nat) : Nat := 1000 + 64 * (n + r.due.length + 1)

/-- Plays a group of concurrent requests. -/
def together (r : Rehearsal σ) (B : Backend σ) (group : List Participant) :
    Rehearsal σ × List Progress :=
  let first := r.nextCaller
  let (r, ps) := play B r.system.elapsed first (r.roundBound group.length)
    { r with nextCaller := first + group.length } (group.map fun p => (p, .unborn))
  -- What is ready at this instant gets on before the next step begins.
  (settleLeaders B (r.system.leaders.length + 1) r, ps.map (·.2))

/-- Lets time pass up to an instant. -/
def rest (B : Backend σ) (goal : Nat) : (fuel : Nat) → Rehearsal σ → Rehearsal σ
  | 0, r => r
  | fuel + 1, r =>
    let r := settleLeaders B (r.system.leaders.length + 1) r
    match (r.instants 0 []).min? with
    | some instant =>
      if instant < goal then rest B goal fuel (r.moveTo B instant) else r.moveTo B goal
    | none => r.moveTo B goal

/-- Lets milliseconds pass. -/
def pass (r : Rehearsal σ) (B : Backend σ) (ms : Nat) : Rehearsal σ :=
  rest B (r.system.elapsed + ms) (r.roundBound 0) r

end Rehearsal

end OnceProxy.Proxy
