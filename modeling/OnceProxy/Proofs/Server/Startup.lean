/-
What a start and a reload make of a configuration.

Nothing is made of a configuration without a signer (`signer?`). A server that
has started works under the policy and behind the gate of its configuration
(`start_eq_ok`); a reload gives the two together (`reload_eq`).
-/
import OnceProxy.Server.Startup

namespace OnceProxy.Server

variable {surroundings : Surroundings} {now : UInt64} {c : ProxyConfig}
  {started : Started} {environment : Option String} {signer : Signer}

/-- The signer of a configuration: the key of the environment wins over the
configured one. -/
def signer? (environment : Option String) (c : ProxyConfig) : Option Signer :=
  (environment.or c.signing.privateKey).bind fun text =>
    (Signer.ofPrivateKey text).toOption

theorem resolve_toOption (environment : Option String) (c : ProxyConfig) :
    (Signer.resolve environment c.signing.privateKey).toOption = signer? environment c := by
  unfold Signer.resolve signer?
  cases environment with
  | some text => rfl
  | none => cases c.signing.privateKey <;> rfl

/-- A server that has started has a signer, and its policy and its service are
those of the configuration. -/
theorem start_eq_ok (h : start surroundings now c = .ok started) :
    ∃ signer keyField, signer? surroundings.environment c = some signer
      ∧ started.policy = .ofConfig c signer
      ∧ started.service = serviceOf c keyField := by
  rw [← resolve_toOption]
  unfold start at h
  cases hsigner : Signer.resolve surroundings.environment c.signing.privateKey with
  | error fault =>
      rw [hsigner] at h
      cases h
  | ok signer =>
  cases hstore : startStore surroundings now c.idempotency.snapshotPath with
  | error fault =>
      rw [hsigner, hstore] at h
      cases h
  | ok store =>
  cases hbase : Url.parse c.origin.baseUrl with
  | error fault =>
      rw [hsigner, hstore, hbase] at h
      cases h
  | ok base =>
  cases hkey : Http.FieldName.parse? c.idempotency.keyHeader with
  | none =>
      rw [hsigner, hstore, hbase, hkey] at h
      cases h
  | some field =>
  rw [hsigner, hstore, hbase, hkey] at h
  cases hlisten : surroundings.canListen c.listener.bindAddress with
  | false =>
      rw [hlisten] at h
      cases h
  | true =>
      rw [hlisten] at h
      cases h
      exact ⟨signer, field, rfl, rfl, rfl⟩

/-- A reload gives a policy and a gate where there is a signer, and nothing
where there is none. -/
theorem reload_eq (environment : Option String) (c : ProxyConfig) :
    reload environment c
      = (signer? environment c).map fun signer => (.ofConfig c signer, .ofConfig c.auth) := by
  rw [← resolve_toOption]
  unfold reload
  cases Signer.resolve environment c.signing.privateKey <;> rfl

namespace Sample

/-- The text of a private key. -/
def keyText : String :=
  "0000000000000000000000000000000000000000000000000000000000000001"

/-- A machine that may have a key for its servers, and has no file. -/
def machine (environment : Option String) : Surroundings where
  environment := environment
  contents? := fun _ => none
  canListen := fun _ => true

end Sample

end OnceProxy.Server
