/-
Trials: a whole server, with an origin that follows a script and a disk with
one file, the snapshot's.

The wall clock of a trial stands still while requests wait; it moves only
when it is told to.
-/
import OnceProxy.Net.SocketAddress
import OnceProxy.Origin.Delivery
import OnceProxy.Proxy.Rehearsal
import OnceProxy.Server.Startup

namespace OnceProxy.Server

open Http Net Origin Proxy Store

-- ========================================================== surroundings

/-- How the scripted origin treats a call that reaches it, after some
milliseconds. -/
structure ScriptedDelivery where
  delay : Nat
  delivery : Delivery

/-- What is around a server. -/
structure World where
  network : Network
  script : List ScriptedDelivery
  /-- The only address that is taken. -/
  taken : String
  /-- The path of the only file. -/
  path : String
  file : Option Octets

namespace World

/-- Whether an address can be listened on: it is local and not taken. -/
def canListen (w : World) (address : String) : Bool :=
  (SocketAddress.parse? address).any (·.isLocal) && address != w.taken

/-- What a server sees at its start. -/
def surroundings (w : World) : Surroundings where
  environment := none
  contents? path := if path = w.path then w.file else none
  canListen := w.canListen

/-- How calls are treated: the script counts those that reach the origin. -/
def plan (w : World) (s : Started) : CallPlan := fun before o =>
  let reply (d : Delivery) := Treatment.reply (w.network.replyTo s.baseUrl s.maxResponse o d)
  if (w.network.receives? s.baseUrl o).isSome then
    let reached := before.filter fun o => (w.network.receives? s.baseUrl o).isSome
    (scripted? w.script reached.length).map fun d => ⟨d.delay, reply d.delivery⟩
  else some ⟨0, reply .refused⟩

end World

-- ================================================================ trials

/-- A server and what is around it. -/
structure Trial where
  world : World
  /-- The configuration it was started with. -/
  config : ProxyConfig
  started : Started
  service : Service
  rehearsal : Rehearsal MemoryStore

/-- A request as it comes in on a connection. -/
structure Arrival where
  method : Method
  target : String
  headers : Headers
  /-- What follows the head. -/
  rest : Octets

namespace Trial

/-- Starts a server in its world. -/
def start (w : World) (c : ProxyConfig) (wall : Int) : Except StartError Trial := do
  let started ← Server.start w.surroundings (UInt64.ofNat wall.toNat) c
  return {
    world := w, config := c, started, service := started.service
    rehearsal := .start (.start wall started.store [started.policy]) (w.plan started) false }

/-- The clock's reading. -/
def now (t : Trial) : UInt64 := t.rehearsal.system.now

/-- The requests that the origin has got so far. -/
def received (t : Trial) : List Received :=
  t.rehearsal.system.calls.filterMap (t.world.network.receives? t.started.baseUrl)

/-- Counts one more. -/
def bump (t : Trial) (c : Counter) : Trial :=
  { t with rehearsal := { t.rehearsal with system := t.rehearsal.system.bump c } }

/-- Answers a request under its id. -/
def serve (t : Trial) (id : FieldValue) (r : Inbound) (isComplete : Bool) : Response × Trial :=
  let B := MemoryStore.backend
  match t.service.admission t.now id r isComplete with
  | .answered response => (response, t)
  | .rejected e => (e.response, t.bump (replyCounter r.method (.error e)))
  | .stalled => (tooLong, { t with rehearsal := t.rehearsal.pass B t.service.requestBound })
  | .admitted incoming =>
    let (rehearsal, progress) := t.rehearsal.together B [⟨0, incoming, 0, some t.service.requestBound⟩]
    let t := { t with rehearsal }
    match progress with
    | [.replied reply] => (replyResponse reply, t.bump (replyCounter r.method reply))
    | _ => (tooLong, t)

/-- Sends a request to the server; the response is what comes back on the
wire. -/
def send (t : Trial) (a : Arrival) (generatedId : FieldValue) : Response × Trial :=
  let headers := a.headers.onWire
  match Uri.parse a.target, framedBody headers a.rest with
  | .ok target, .ok (body, isComplete) =>
    let id := requestId headers generatedId
    let (response, t) := t.serve id ⟨a.method, target, headers, body⟩ isComplete
    ((taggedResponse response id).onWire a.method, t)
  | _, _ => (badRequest, t)

/-- Moves the wall clock. -/
def advance (t : Trial) (ms : Nat) : Trial :=
  { t with rehearsal := t.rehearsal.perform MemoryStore.backend (.advance ms) }

/-- Gives the server another configuration. -/
def reload (t : Trial) (c : ProxyConfig) : Trial :=
  match Server.reload none c with
  | none => t
  | some (policy, auth) =>
    { t with
      service := { t.service with auth := auth }
      rehearsal := t.rehearsal.perform MemoryStore.backend (.setPolicy 0 policy) }

/-- The disk after the server has stopped. -/
def stop (t : Trial) : World :=
  if t.config.idempotency.snapshotPath = some t.world.path then
    { t.world with file := some (t.rehearsal.system.store.save t.now) }
  else t.world

/-- Stops the server and starts it again with its first configuration. What
has been counted and called stays on record. -/
def restart (t : Trial) : Except StartError Trial := do
  let old := t.rehearsal.system
  let new ← start t.stop t.config old.wall
  let system := { new.rehearsal.system with
    elapsed := old.elapsed, metrics := old.metrics, calls := old.calls, replies := old.replies }
  return { new with rehearsal := { new.rehearsal with
    system, nextCaller := t.rehearsal.nextCaller } }

end Trial

end OnceProxy.Server
