/-
Starting a server from a configuration, and giving it another one.

A start takes its steps in a fixed order and fails at the first that cannot
be taken: the key, the snapshot, the base URL, the key field, the listening
address.
-/
import OnceProxy.Server.Service
import OnceProxy.Store.Snapshot
import OnceProxy.Url.Parse

namespace OnceProxy.Server

open Http Signing Store

/-- Why a server does not start. -/
inductive StartError where
  | signer (e : SigningError)
  | snapshot (e : StoreError)
  | baseUrl (e : Url.UrlError)
  | keyField
  | listener
  deriving DecidableEq

/-- The words for a failed start. -/
def StartError.message : StartError → String
  | .signer e => "signer: " ++ e.message
  | .snapshot e => "cache snapshot: " ++ e.message
  | .baseUrl e => "server: invalid origin base url: " ++ e.message
  | .keyField => "server: invalid idempotency key header: invalid HTTP header name"
  | .listener => "listener: address not available"

/-- What a server consists of when it has started. -/
structure Started where
  service : Service
  policy : Policy
  baseUrl : Url
  /-- The octets of a response that are read at most. -/
  maxResponse : Nat
  store : MemoryStore

/-- What a server has to know of its surroundings to start. -/
structure Surroundings where
  /-- The signing key of the environment. -/
  environment : Option String
  /-- The contents of a file. -/
  contents? : String → Option Octets
  /-- Whether an address can be listened on. -/
  canListen : String → Bool

/-- The store of a snapshot's path; an empty one if there is no path or no
file. -/
def startStore (w : Surroundings) (now : UInt64) (path : Option String) :
    Except StoreError MemoryStore :=
  match path.bind w.contents? with
  | some contents => MemoryStore.load now contents
  | none => .ok .empty

/-- The service of a configuration, with its key field. -/
def serviceOf (c : ProxyConfig) (keyField : FieldName) : Service where
  keyField := keyField
  maxBody := c.listener.maxBodyBytes.toNat
  requestBound := c.timeouts.requestSecs.toNat * 1000
  auth := .ofConfig c.auth

/-- Starts a server. -/
def start (w : Surroundings) (now : UInt64) (c : ProxyConfig) : Except StartError Started := do
  let signer ← (Signer.resolve w.environment c.signing.privateKey).mapError .signer
  let store ← (startStore w now c.idempotency.snapshotPath).mapError .snapshot
  let baseUrl ← (Url.parse c.origin.baseUrl).mapError .baseUrl
  let some keyField := FieldName.parse? c.idempotency.keyHeader | throw .keyField
  if !w.canListen c.listener.bindAddress then throw .listener
  return {
    service := serviceOf c keyField
    policy := .ofConfig c signer
    baseUrl
    maxResponse := c.origin.maxResponseBytes.toNat
    store }

/-- What a new configuration changes in a running server: the policy and the
gate, unless its key is no key. -/
def reload (environment : Option String) (c : ProxyConfig) : Option (Policy × AuthPolicy) :=
  match Signer.resolve environment c.signing.privateKey with
  | .ok signer => some (.ofConfig c signer, .ofConfig c.auth)
  | .error _ => none

end OnceProxy.Server
