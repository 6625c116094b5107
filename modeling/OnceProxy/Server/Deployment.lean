/-
A deployment: a server at work, the file that it watches, and what is on its
way from one to the other.

The watcher loads the file after every change and puts what loads into a
queue. The reloader takes one configuration after the other out of it; one
that has no signer it drops, of any other it exchanges the policy first and
stores the gate next. Requests come in through the service at any time, also
between the two, and whatever else can happen in the proxy goes on beside all
this. What is counted about requests in front of the proxy is left out.
-/
import OnceProxy.Config.Watch
import OnceProxy.Proxy.System
import OnceProxy.Server.Startup

namespace OnceProxy.Server

open Config Http Proxy Store

structure Deployment where
  /-- The signing key of the environment. -/
  environment : Option String
  /-- The contents of the watched file. -/
  contents : Octets
  /-- What was delivered and has not been taken yet. -/
  updates : List ProxyConfig
  /-- The gate that the reloader has yet to store. -/
  halfway : Option AuthPolicy
  service : Service
  system : System MemoryStore

/-- What can happen in a deployment. -/
inductive DeploymentEvent where
  /-- Something happens to the file, and the watcher sees to it. -/
  | file (e : FileEvent)
  /-- The reloader takes the next configuration. -/
  | take
  /-- The reloader stores the gate that goes with the policy. -/
  | finish
  /-- A request comes in under its id. -/
  | request (caller : CallerId) (id : FieldValue) (r : Inbound) (isComplete : Bool)
  /-- Something happens in the proxy. -/
  | work (e : Event)

/-- Whether the event is part of a reload. -/
def DeploymentEvent.isReload : DeploymentEvent → Bool
  | .file _ | .take | .finish => true
  | .request .. | .work _ => false

/-- Whether the event comes from within the proxy: requests come in through
the service, and policies by reloads. -/
def isInternal : Event → Bool
  | .arrive .. | .setPolicy .. => false
  | _ => true

namespace Deployment

/-- Starts a server, with a file to watch. -/
def start (surroundings : Surroundings) (contents : Octets) (c : ProxyConfig) (wall : Int) :
    Except StartError Deployment := do
  let started ← Server.start surroundings (UInt64.ofNat wall.toNat) c
  return {
    environment := surroundings.environment
    contents
    updates := []
    halfway := none
    service := started.service
    system := .start wall started.store [started.policy] }

/-- Lets something happen in the proxy. -/
def perform (d : Deployment) (e : Event) : Option Deployment :=
  (d.system.step MemoryStore.backend e).map fun s => { d with system := s }

/-- The reloader, when it has nothing left to store, takes the next
configuration. -/
def take (d : Deployment) : Option Deployment :=
  match d.halfway, d.updates with
  | none, c :: rest =>
    let d := { d with updates := rest }
    match reload d.environment c with
    | some (policy, auth) => { d with halfway := some auth }.perform (.setPolicy 0 policy)
    | none => some d
  | _, _ => none

/-- What an event does, where it can happen. -/
def step (d : Deployment) : DeploymentEvent → Option Deployment
  | .file e =>
    some { d with
      contents := e.contentsAfter d.contents
      updates := d.updates ++ (e.delivers d.contents).toList }
  | .take => d.take
  | .finish =>
    d.halfway.map fun auth => { d with halfway := none, service := { d.service with auth } }
  | .request caller id r isComplete =>
    match d.service.admission d.system.now id r isComplete with
    | .admitted incoming => d.perform (.arrive 0 caller incoming)
    | .answered _ | .rejected _ | .stalled => some d
  | .work e => if isInternal e then d.perform e else none

/-- What a sequence of events does, where all of them can happen. -/
def run (d : Deployment) (events : List DeploymentEvent) : Option Deployment :=
  events.foldlM step d

end Deployment

end OnceProxy.Server
