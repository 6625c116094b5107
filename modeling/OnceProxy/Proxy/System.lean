/-
The proxy as a transition system.

Any number of instances share one store. Requests arrive, wait, and are
replied to; leaders of flights call the origin. Work proceeds in events,
each of which runs up to the next point where it has to wait: a call to the
origin, or the end of a flight. Between two events anything else may
happen: other requests, sweeps, new policies, the passing of time, a caller
that goes away, a leader that dies. `step` says what an event does, and is
undefined where the event cannot happen.

The system keeps a record of all calls made and all replies given, in
order. A call is known by its place in that record.
-/
import OnceProxy.Flight
import OnceProxy.Proxy.Request
import OnceProxy.Store.Cache

namespace OnceProxy.Proxy

open Http Origin Store

-- =============================================================== parties

/-- The number of a caller. -/
abbrev CallerId := Nat

/-- The place of a call in the record. -/
abbrev CallId := Nat

/-- One instance of the proxy. -/
structure Instance where
  policy : Policy
  flights : FlightTable Outcome

/-- A call in progress: which it is, and the instant from which on it has
taken too long. -/
structure OpenCall where
  call : CallId
  deadline : Nat
  deriving DecidableEq

/-- The leader of a flight, until it gives its guard back. It works under the
policy of the request it was started by. -/
structure Leader where
  site : Nat
  guard : FlightGuard
  request : Prepared
  policy : Policy
  /-- The call it waits for; none before its first run. -/
  waiting : Option OpenCall

/-- A caller whose request waits for the end of a flight. -/
structure Waiter where
  caller : CallerId
  site : Nat
  request : Prepared
  policy : Policy
  flight : FlightId
  /-- The flights joined so far, this one included. -/
  joined : Nat

/-- A caller whose request went to the origin without a key. -/
structure Passer where
  caller : CallerId
  policy : Policy
  waiting : OpenCall

/-- The instances, their shared store, and everyone at work. -/
structure System (σ : Type) where
  /-- The wall clock, in milliseconds. -/
  wall : Int
  /-- The time since the start, in milliseconds. -/
  elapsed : Nat
  store : σ
  metrics : Metrics
  instances : List Instance
  leaders : List Leader
  waiters : List Waiter
  passers : List Passer
  calls : List Outbound
  replies : List (CallerId × Except ProxyError Replay)

namespace System

/-- Instances under their policies over a store, with nobody at work. -/
def start (wall : Int) (store : σ) (policies : List Policy) : System σ where
  wall := wall
  elapsed := 0
  store := store
  metrics := .empty
  instances := policies.map fun p => ⟨p, .empty⟩
  leaders := []
  waiters := []
  passers := []
  calls := []
  replies := []

/-- The clock's reading; before the epoch it reads zero. -/
def now (s : System σ) : UInt64 := UInt64.ofNat s.wall.toNat

-- ========================================================= small changes

/-- Runs a dialogue with the store at this instant. -/
def converse (s : System σ) (B : Backend σ) (d : Dialogue α) : Except StoreError α × System σ :=
  let (r, store, metrics) := d.run B s.now (s.store, s.metrics)
  (r, { s with store := store, metrics := metrics })

/-- Counts one more. -/
def bump (s : System σ) (c : Counter) : System σ := { s with metrics := s.metrics.bump c }

/-- Gives a caller its reply. -/
def reply (s : System σ) (caller : CallerId) (r : Except ProxyError Replay) : System σ :=
  { s with replies := s.replies ++ [(caller, r)] }

/-- Starts a call, to be answered within the policy's bound. -/
def startCall (s : System σ) (policy : Policy) (request : Outbound) : OpenCall × System σ :=
  (⟨s.calls.length, s.elapsed + policy.originTimeout⟩, { s with calls := s.calls ++ [request] })

/-- Changes the flights of an instance. -/
def updateFlights (s : System σ) (site : Nat)
    (change : FlightTable Outcome → FlightTable Outcome) : System σ :=
  { s with
    instances := s.instances.modify site fun i => { i with flights := change i.flights } }

/-- Ends a leader's flight; the leader is gone then. -/
def finishFlight (s : System σ) (l : Leader) (how : FlightEnd Outcome) : System σ :=
  { s.updateFlights l.site (·.finish l.guard how) with
    leaders := s.leaders.filter fun m => !(m.site = l.site && m.guard = l.guard) }

-- =============================================================== lookups

/-- The reply that the store holds for a request, if it holds an entry under
its key: a hit is repeated, and its life extended where the policy says so,
whether or not that works; an entry of another operation is a conflict. -/
def lookup (s : System σ) (B : Backend σ) (r : Prepared) (policy : Policy) :
    Option (Except ProxyError Replay) × System σ :=
  match s.converse B (Cache.get r.fingerprint.entryKey) with
  | (.error e, s) => (some (.error (.storeUnavailable (.store e))), s)
  | (.ok none, s) => (none, s.bump (.lookups .miss))
  | (.ok (some entry), s) =>
    if entry.answers r.fingerprint then
      let s := s.bump (.lookups .hit)
      let s :=
        if policy.refreshOnReplay then
          (s.converse B (Cache.refresh r.fingerprint.entryKey policy.entryTtl)).2
        else s
      (some (.ok (.ofEntry entry true)), s)
    else (some (.error .conflict), s.bump (.lookups .conflict))

/-- One attempt of a keyed request: a lookup, and on a miss the joining of
the key's flight, which starts a leader if there is none. -/
def attempt (s : System σ) (B : Backend σ) (caller : CallerId) (site : Nat) (r : Prepared)
    (policy : Policy) (joined : Nat) : System σ :=
  match s.lookup B r policy with
  | (some answer, s) => s.reply caller answer
  | (none, s) =>
    match s.instances[site]? with
    | none => s
    | some i =>
      let key := r.fingerprint.entryKey
      let (role, id, flights) := i.flights.join key
      let s := (s.updateFlights site fun _ => flights).bump (.joins role)
      let leaders :=
        match role with
        | .leader => s.leaders ++ [⟨site, ⟨key, id⟩, r, policy, none⟩]
        | .follower => s.leaders
      { s with
        leaders := leaders
        waiters := s.waiters ++ [⟨caller, site, r, policy, id, joined + 1⟩] }

-- ================================================================ events

/-- The flights that a request may join before it gives up. -/
def maxLeadershipAttempts : Nat := 3

/-- A request comes in. -/
def arrive (s : System σ) (B : Backend σ) (site : Nat) (caller : CallerId) (r : Incoming) :
    Option (System σ) := do
  let policy := (← s.instances[site]?).policy
  match IdempotencyKey.ofRequest r.method r.key policy.requireKey with
  | .error fault => return s.reply caller (.error (.invalidRequest (.key fault)))
  | .ok (some key) => return s.attempt B caller site (r.prepare key) policy 0
  | .ok none =>
    let (waiting, s) := s.startCall policy (r.outbound policy s.now)
    return { s with passers := s.passers ++ [⟨caller, policy, waiting⟩] }

/-- The leader of a flight. -/
def findLeader (s : System σ) (site : Nat) (flight : FlightId) : Option Leader :=
  s.leaders.find? fun l => l.site = site && l.guard.id = flight

/-- The leader that waits for a call. -/
def leaderOf (s : System σ) (call : CallId) : Option Leader :=
  s.leaders.find? fun l => l.waiting.any (·.call = call)

/-- The caller without key that waits for a call. -/
def passerOf (s : System σ) (call : CallId) : Option Passer :=
  s.passers.find? (·.waiting.call = call)

/-- A leader's first run: it looks into the store once more, since another
instance may have finished meanwhile, and calls the origin. -/
def lead (s : System σ) (B : Backend σ) (site : Nat) (flight : FlightId) : Option (System σ) := do
  let l ← s.findLeader site flight
  if l.waiting.isSome then none
  else
    match s.converse B (Cache.get l.guard.key) with
    | (.error e, s) => return s.finishFlight l (.completed (.error (.storeUnavailable (.store e))))
    | (.ok (some entry), s) => return s.finishFlight l (.completed (.ok ⟨entry, false⟩))
    | (.ok none, s) =>
      let (waiting, s) := s.startCall l.policy (l.request.outbound l.policy s.now)
      return { s with
        leaders := s.leaders.map fun m =>
          if m.site = site && m.guard.id = flight then { m with waiting := some waiting } else m }

/-- What a leader makes of the origin's reply: a final response is stored
unless another was first. -/
def resolve (s : System σ) (B : Backend σ) (l : Leader) (r : Reply) : Outcome × System σ :=
  match r with
  | .error e => (.error (.originUnavailable (.origin e)), s.bump (.originCalls .error))
  | .ok response =>
    let s := s.bump (.originCalls (.status response.status.code))
    match classify response.status l.policy with
    | .error e => (.error e, s)
    | .ok () =>
      match s.converse B
          (Cache.putIfAbsent l.guard.key (l.request.entryFor l.policy response s.now)) with
      | (.error e, s) => (.error (.storeUnavailable (.store e)), s)
      | (.ok (.stored entry), s) => (.ok ⟨entry, true⟩, s)
      | (.ok (.held entry), s) => (.ok ⟨entry, false⟩, s)

/-- Takes a caller off those that wait for a call. -/
def dropPasser (s : System σ) (caller : CallerId) : System σ :=
  { s with passers := s.passers.filter (·.caller ≠ caller) }

/-- The origin replies to a call in time. -/
def answer (s : System σ) (B : Backend σ) (call : CallId) (r : Reply) : Option (System σ) :=
  match s.leaderOf call with
  | some l =>
    if l.waiting.all (s.elapsed ≤ ·.deadline) then
      let (outcome, s) := s.resolve B l r
      some (s.finishFlight l (.completed outcome))
    else none
  | none => do
    let p ← s.passerOf call
    if s.elapsed ≤ p.waiting.deadline then
      let s := s.dropPasser p.caller
      match r with
      | .error e =>
        return (s.bump (.originCalls .error)).reply p.caller
          (.error (.originUnavailable (.origin e)))
      | .ok response =>
        return (s.bump (.originCalls (.status response.status.code))).reply p.caller
          (.ok (.passThrough response))
    else none

/-- The error for a call that took too long. -/
def timeoutError (policy : Policy) : ProxyError := .originTimeout (millis policy.originTimeout)

/-- A call has taken too long. -/
def timeout (s : System σ) (call : CallId) : Option (System σ) :=
  match s.leaderOf call with
  | some l =>
    if l.waiting.all (·.deadline ≤ s.elapsed) then
      some ((s.bump (.originCalls .timeout)).finishFlight l
        (.completed (.error (timeoutError l.policy))))
    else none
  | none => do
    let p ← s.passerOf call
    if p.waiting.deadline ≤ s.elapsed then
      return ((s.dropPasser p.caller).bump (.originCalls .timeout)).reply p.caller
        (.error (timeoutError p.policy))
    else none

/-- A leader dies. -/
def crash (s : System σ) (site : Nat) (flight : FlightId) : Option (System σ) := do
  return s.finishFlight (← s.findLeader site flight) .aborted

/-- A waiting caller learns the end of its flight. If the leader died, its
request starts over, a few times at most. -/
def wake (s : System σ) (B : Backend σ) (caller : CallerId) : Option (System σ) := do
  let w ← s.waiters.find? (·.caller = caller)
  let i ← s.instances[w.site]?
  let s := { s with waiters := s.waiters.filter (·.caller ≠ caller) }
  match ← i.flights.outcome? w.flight with
  | .completed outcome => return s.reply caller (settle outcome w.request.fingerprint)
  | .aborted =>
    if w.joined < maxLeadershipAttempts then
      return s.attempt B caller w.site w.request w.policy w.joined
    else
      return s.reply caller (.error (.originUnavailable (.leadersAborted maxLeadershipAttempts)))

/-- A caller goes away. Its own call is dropped with it; a flight is not. -/
def leave (s : System σ) (caller : CallerId) : System σ :=
  { s.dropPasser caller with waiters := s.waiters.filter (·.caller ≠ caller) }

end System

-- ============================================================= histories

/-- What can happen. -/
inductive Event where
  /-- A request comes in at an instance. -/
  | arrive (site : Nat) (caller : CallerId) (request : Incoming)
  /-- A leader runs for the first time. -/
  | lead (site : Nat) (flight : FlightId)
  /-- The origin replies to a call. -/
  | answer (call : CallId) (reply : Reply)
  /-- A call has taken too long. -/
  | timeout (call : CallId)
  /-- A leader dies. -/
  | crash (site : Nat) (flight : FlightId)
  /-- A waiting caller learns the end of its flight. -/
  | wake (caller : CallerId)
  /-- A caller goes away. -/
  | leave (caller : CallerId)
  /-- Time passes; the wall clock need not move with it. -/
  | elapse (ms : Nat)
  /-- The wall clock moves on. -/
  | advance (ms : Nat)
  /-- An instance gets a new policy. -/
  | setPolicy (site : Nat) (policy : Policy)
  /-- What has expired is dropped from the store. -/
  | sweep

/-- What an event does, where it can happen. -/
def System.step (B : Backend σ) (s : System σ) : Event → Option (System σ)
  | .arrive site caller request => s.arrive B site caller request
  | .lead site flight => s.lead B site flight
  | .answer call reply => s.answer B call reply
  | .timeout call => s.timeout call
  | .crash site flight => s.crash site flight
  | .wake caller => s.wake B caller
  | .leave caller => some (s.leave caller)
  | .elapse ms => some { s with elapsed := s.elapsed + ms }
  | .advance ms => some { s with wall := s.wall + ms }
  | .setPolicy site policy =>
    some { s with instances := s.instances.modify site fun i => { i with policy := policy } }
  | .sweep =>
    let (store, metrics) := B.sweepAndReport s.now (s.store, s.metrics)
    some { s with store := store, metrics := metrics }

/-- What a sequence of events does, where all of them can happen. -/
def System.run (B : Backend σ) (s : System σ) (events : List Event) : Option (System σ) :=
  events.foldlM (System.step B) s

end OnceProxy.Proxy
