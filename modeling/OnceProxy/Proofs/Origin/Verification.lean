/-
What the origin can verify.

The signature of a call covers the path and the key that the proxy has read,
and the origin checks it against the path and the key that it gets
(`verdict_ok_iff`). The two agree where the base URL is the root of the
origin (`received_target`), and where the key field gets across
(`received_key`): then every call is accepted within its window. Where the
base URL has a path of its own, or where a caller's `connection` field takes
the key away, they do not, and the origin refuses what the proxy itself has
signed.
-/
import OnceProxy.Config.Validation
import OnceProxy.Origin.Delivery
import OnceProxy.Proofs.Origin.Target
import OnceProxy.Proofs.Proxy.Calls
import OnceProxy.Proofs.Signing.Acceptance
import OnceProxy.Proofs.Signing.Transport
import OnceProxy.Server.Buffer

namespace OnceProxy

/-- Buffering keeps everything, and reads the key. -/
theorem Server.buffer_eq_ok {r : Inbound} {keyField : Http.FieldName}
    {maxBody : Nat} {q : Proxy.Incoming} (h : buffer r keyField maxBody = .ok q) :
    ∃ key, rawKey r.headers keyField = .ok key
      ∧ q = ⟨r.method, r.target.pathAndQuery, r.headers, key, r.body⟩ := by
  unfold buffer at h
  dsimp only [bind, Except.bind] at h
  split at h
  · cases h
  · next key hkey =>
    split at h
    · cases h
    · exact ⟨key, hkey, (Except.ok.inj h).symm⟩

namespace Origin

open Config Http Proxy Server Signing

-- ================================================================ setups

/-- A proxy under an accepted configuration, with what is read from that at
the start. -/
structure Setup where
  config : ProxyConfig
  accepted : config.problems = []
  base : Url
  base_eq : Url.parse config.origin.baseUrl = .ok base
  keyField : FieldName
  keyField_eq : FieldName.parse? config.idempotency.keyHeader = some keyField
  signer : Signer

namespace Setup

def policy (d : Setup) : Policy := .ofConfig d.config d.signer

/-- An accepted base URL is plain HTTP and has no query. -/
theorem base_spec (d : Setup) :
    d.base.scheme = "http" ∧ d.base.query = none := by
  obtain ⟨base, hbase, hspec⟩ := ProxyConfig.exists_base d.accepted
  rw [d.base_eq] at hbase
  cases hbase
  exact hspec

/-- A request's way to the origin: it is read from a connection, buffered,
turned into a call, and received. -/
structure Passage (d : Setup) where
  line : String
  inbound : Inbound
  target_eq : Uri.parse line = .ok inbound.target
  incoming : Incoming
  buffered : buffer inbound d.keyField d.config.listener.maxBodyBytes.toNat
    = .ok incoming
  now : UInt64
  call : Outbound
  call_eq : incoming.call? d.policy now = some call
  network : Network
  received : Received
  received_eq : network.receives? d.base call = some received

/-- Calls go to the root of the origin, and the key has a field of its own. -/
structure Plain (d : Setup) : Prop where
  root : withoutFinalSlashes d.base.path = ""
  fragment : d.base.fragment = none
  keyField : d.keyField ∉ Headers.reservedNames

end Setup

/-- The key as a receiver reads it; none if it is absent or no text. -/
def receivedKey (h : Headers) (keyField : FieldName) : Option String :=
  (h.first? keyField).bind FieldValue.text?

namespace Setup

namespace Passage

variable {d : Setup} (p : d.Passage)

/-- What a verifier that trusts the proxy says of the request that it has
received. -/
def verdict (maxAge second : UInt64) : Except SigningError Unit :=
  (Verifier.mk d.signer.address maxAge).checkRequest p.received.method
    p.received.target (receivedKey p.received.headers d.keyField)
    p.received.headers p.received.body second

-- ============================================================== the parts

theorem incoming_eq :
    ∃ key, rawKey p.inbound.headers d.keyField = .ok key
      ∧ p.incoming = ⟨p.inbound.method, p.inbound.target.pathAndQuery,
        p.inbound.headers, key, p.inbound.body⟩ :=
  buffer_eq_ok p.buffered

def envelope : Envelope :=
  d.signer.signAt p.incoming.payload (p.now / 1000)

theorem received_parts :
    ∃ uri, targetUri d.base (RequestPath.normalize p.incoming.path) = .ok uri
      ∧ p.received = ⟨p.incoming.method, uri.requestTarget,
        (p.envelope.applyTo p.incoming.headers.forwardable).onWire,
        p.incoming.body⟩ := by
  have h := p.received_eq
  rw [Incoming.call?_eq p.call_eq] at h
  unfold Network.receives? at h
  split at h
  · cases h
  · next uri huri =>
    split at h
    · exact ⟨uri, huri, (Option.some.inj h).symm⟩
    · cases h

theorem received_target (hplain : d.Plain) :
    p.received.target = RequestPath.normalize p.incoming.path := by
  obtain ⟨uri, huri, hreceived⟩ := p.received_parts
  obtain ⟨hhttp, hquery⟩ := d.base_spec
  obtain ⟨key, -, hincoming⟩ := p.incoming_eq
  have hwritten := Url.parse_isWritten d.base_eq hhttp
  have hslash := RequestPath.head?_normalize p.incoming.path
  have hhash : '#' ∉ (RequestPath.normalize p.incoming.path).toList := by
    intro hmem
    rcases RequestPath.mem_normalize hmem with hc | hmem
    · cases hc
    · rw [hincoming] at hmem
      exact Uri.hash_not_mem_pathAndQuery p.target_eq hmem
  obtain rfl := targetUri_ok hwritten hhttp hquery hplain.fragment hslash hhash
    huri
  rw [hreceived]
  dsimp only
  rw [Uri.requestTarget_of_slash] <;> rw [hplain.root, String.empty_append]
  exact hslash

/-- The values of the key field that arrive; the signature's fields have
other names. -/
theorem received_values (hfield : d.keyField ∉ Headers.reservedNames) :
    p.received.headers.values d.keyField
      = (if p.inbound.headers.isConnectionScoped d.keyField then []
        else p.inbound.headers.values d.keyField).map FieldValue.trimmed := by
  obtain ⟨uri, -, hreceived⟩ := p.received_parts
  obtain ⟨key, -, hincoming⟩ := p.incoming_eq
  have hother : ∀ n ∈ Headers.reservedNames, d.keyField ≠ n := by
    rintro n hn rfl
    exact hfield hn
  have hreserved : Headers.reservedNames.contains d.keyField = false := by
    simpa using hfield
  rw [hreceived]
  dsimp only
  rw [Headers.values_onWire, Envelope.values_applyTo,
    if_neg (hother _ (by decide)), if_neg (hother _ (by decide)),
    if_neg (hother _ (by decide)), Headers.values_forwardable, hreserved,
    Bool.or_false, hincoming]

/-- A key field that belongs to the connection does not arrive. -/
theorem received_key_of_scoped (hfield : d.keyField ∉ Headers.reservedNames)
    (hscoped : p.inbound.headers.isConnectionScoped d.keyField = true) :
    receivedKey p.received.headers d.keyField = none := by
  unfold receivedKey Headers.first?
  rw [p.received_values hfield, hscoped]
  rfl

theorem received_key (hfield : d.keyField ∉ Headers.reservedNames)
    (hcrosses : p.incoming.key.isSome →
      p.inbound.headers.isConnectionScoped d.keyField = false) :
    receivedKey p.received.headers d.keyField = p.incoming.key := by
  obtain ⟨key, hraw, hincoming⟩ := p.incoming_eq
  have hkey : p.incoming.key = key := by rw [hincoming]
  rw [hkey] at hcrosses ⊢
  unfold receivedKey
  unfold rawKey at hraw
  unfold Headers.first? at hraw ⊢
  rw [p.received_values hfield]
  cases hfirst : p.inbound.headers.values d.keyField with
  | nil =>
      rw [hfirst] at hraw
      obtain rfl := Except.ok.inj hraw
      split <;> rfl
  | cons v rest =>
      rw [hfirst] at hraw
      dsimp only [List.head?_cons] at hraw
      cases htext : v.text? with
      | none =>
          rw [htext] at hraw
          cases hraw
      | some text =>
          rw [htext] at hraw
          obtain rfl := Except.ok.inj hraw
          have hvisible := v.visible_of_text? htext
            (Incoming.isVisibleText_of_call? p.call_eq hkey)
          rw [hcrosses rfl]
          simp [hvisible.trimmed, htext]

-- ============================================================== verdicts

/-- The receiver rebuilds what it verifies from what it has received; apart
from that the envelope is the proxy's. -/
theorem verdict_ok_iff {maxAge second : UInt64} :
    p.verdict maxAge second = .ok ()
      ↔ InWindow (p.now / 1000) maxAge second
        ∧ p.envelope.signature.signerOf (signingDigest (p.now / 1000)
            (outboundPayload p.received.method p.received.target
              (receivedKey p.received.headers d.keyField) p.received.body))
          = .ok d.signer.address := by
  obtain ⟨uri, -, hreceived⟩ := p.received_parts
  have henvelope : ∀ payload, Envelope.ofHeaders p.received.headers payload
      = .ok { p.envelope with payload } := by
    intro payload
    rw [hreceived]
    exact Envelope.ofHeaders_onWire_applyTo p.envelope _ payload
  have hsigner : p.envelope.signer = d.signer.address := rfl
  have htimestamp : p.envelope.timestamp = p.now / 1000 := rfl
  unfold verdict
  rw [Verifier.checkRequest_of_headers (henvelope _), Verifier.checkAt_ok_iff,
    hsigner, htimestamp, eq_self_iff_true, true_and]

/-- Within the window of its signature the origin accepts every call. -/
theorem verdict_ok (hplain : d.Plain)
    (hcrosses : p.incoming.key.isSome →
      p.inbound.headers.isConnectionScoped d.keyField = false)
    (hrecovers : d.signer.Recovers
      (signingDigest (p.now / 1000) p.incoming.payload))
    {maxAge second : UInt64} (hwindow : InWindow (p.now / 1000) maxAge second) :
    p.verdict maxAge second = .ok () := by
  obtain ⟨uri, -, hreceived⟩ := p.received_parts
  have hpayload : outboundPayload p.received.method p.received.target
      (receivedKey p.received.headers d.keyField) p.received.body
        = p.incoming.payload := by
    rw [p.received_target hplain, p.received_key hplain.keyField hcrosses,
      hreceived]
    rfl
  refine p.verdict_ok_iff.mpr ⟨hwindow, ?_⟩
  rw [hpayload]
  exact hrecovers

end Passage

end Setup

-- =============================================================== a request

namespace Sample

open Proxy.Sample (order orderKey)

/-- A proxy in front of an origin on the same machine. -/
def plain : Setup where
  config := {}
  accepted := by decide +kernel
  base := ⟨"http", "", some "127.0.0.1", some 3000, "/", none, none⟩
  base_eq := by decide +kernel
  keyField := ⟨"idempotency-key", by decide⟩
  keyField_eq := by decide +kernel
  signer := Proxy.Sample.policy.signer

/-- The same, where the origin is found under a path. -/
def underPath : Setup where
  config := { origin := { baseUrl := "http://127.0.0.1:3000/api" } }
  accepted := by decide +kernel
  base := { plain.base with path := "/api" }
  base_eq := by decide +kernel
  keyField := plain.keyField
  keyField_eq := plain.keyField_eq
  signer := plain.signer

variable (d : Setup) (more : List Field)

/-- The request as it comes in, with more fields behind its key. -/
def inbound : Server.Inbound where
  method := order.method
  target := ⟨none, "", order.path⟩
  headers := ⟨(plain.keyField, .ofText orderKey.text) :: more⟩
  body := order.body

/-- The request as it is buffered. -/
def incoming : Incoming := { order with headers := (inbound more).headers }

/-- The call for it. -/
def call : Outbound :=
  ((incoming more).prepare orderKey).outbound d.policy 1700000000000

theorem rawKey_inbound :
    rawKey (inbound more).headers plain.keyField
      = .ok (some orderKey.text) := by
  have hfirst : (inbound more).headers.first? plain.keyField
      = some (.ofText orderKey.text) := by
    simp [Headers.first?, Headers.values, inbound]
  unfold rawKey
  rw [hfirst]
  dsimp only
  rw [FieldValue.text?_ofText orderKey.isVisibleText]

theorem hasKey_incoming : (incoming more).HasKey orderKey :=
  ⟨orderKey.text, rfl, by decide +kernel⟩

theorem path_call : (call d more).path = order.path := by
  show RequestPath.normalize order.path = order.path
  decide +kernel

/-- Its way to an origin. -/
def passage (uri : Uri) (hfield : d.keyField = plain.keyField)
    (hmax : 3 ≤ d.config.listener.maxBodyBytes.toNat)
    (huri : targetUri d.base order.path = .ok uri)
    (hhttp : uri.scheme = some "http") : d.Passage where
  line := order.path
  inbound := inbound more
  target_eq := by
    show Uri.parse order.path = .ok ⟨none, "", order.path⟩
    decide +kernel
  incoming := incoming more
  buffered := by
    unfold buffer
    rw [hfield, rawKey_inbound]
    exact if_neg (Nat.not_lt.mpr hmax)
  now := 1700000000000
  call := call d more
  call_eq := by
    unfold Incoming.call?
    rw [(hasKey_incoming more).ofRequest]
    rfl
  network := ⟨some (place uri)⟩
  received := ⟨order.method, uri.requestTarget, (call d more).headers.onWire,
    order.body⟩
  received_eq := by
    unfold Network.receives?
    rw [path_call, huri]
    exact if_pos ⟨hhttp, rfl⟩

/-- The address found behind the order's signature, if it is taken for that
of a request with this path and key. -/
def addressFor (path : String) (key : Option String) :
    Except SignatureFault Crypto.Address :=
  (plain.signer.signDigest (signingDigest 1700000000
    (incoming []).payload)).signerOf (signingDigest 1700000000
      (outboundPayload order.method path key order.body))

/-- It is the signer's for what was signed, and for nothing else; all at once,
since the signature is to be computed only once. -/
theorem addressFor_order :
    addressFor order.path (some orderKey.text) = .ok plain.signer.address
      ∧ addressFor "/api/orders" (some orderKey.text)
        ≠ .ok plain.signer.address
      ∧ addressFor order.path none ≠ .ok plain.signer.address := by
  decide +kernel

/-- To the root of the origin. -/
def sent : plain.Passage :=
  passage plain [] ⟨some "http", "127.0.0.1:3000", "/orders"⟩ rfl
    (by decide) (by decide +kernel) rfl

/-- To the same origin, and its connection is to take the key away. -/
def sentOnce : plain.Passage :=
  passage plain [(.connection, .ofText "close, idempotency-key")]
    ⟨some "http", "127.0.0.1:3000", "/orders"⟩ rfl
    (by decide) (by decide +kernel) rfl

/-- To an origin under a path. -/
def sentUnderPath : underPath.Passage :=
  passage underPath [] ⟨some "http", "127.0.0.1:3000", "/api/orders"⟩ rfl
    (by decide) (by decide +kernel) rfl

section Order

variable {d : Setup} (p : d.Passage) (hsigner : d.signer = plain.signer)
  (hpayload : p.incoming.payload = (incoming []).payload)
  (hsecond : p.now / 1000 = 1700000000)

include hsigner hpayload hsecond

/-- Whatever the way of the order, its signer is found again. -/
theorem recovers_order : d.signer.Recovers
    (signingDigest (p.now / 1000) p.incoming.payload) := by
  have hsigned : (incoming []).payload
      = outboundPayload order.method order.path (some orderKey.text)
        order.body := by decide +kernel
  have hfound := addressFor_order.1
  unfold addressFor at hfound
  rw [← hsigned] at hfound
  rw [hsigner, hpayload, hsecond]
  exact hfound

/-- What has to be found for the order to be accepted. -/
theorem addressFor_of_verdict (hmethod : p.received.method = order.method)
    (hbody : p.received.body = order.body) {maxAge second : UInt64}
    (h : p.verdict maxAge second = .ok ()) :
    addressFor p.received.target (receivedKey p.received.headers d.keyField)
      = .ok plain.signer.address := by
  have hfound := (p.verdict_ok_iff.mp h).2
  unfold Setup.Passage.envelope Signer.signAt at hfound
  rw [hsigner, hpayload, hsecond, hmethod, hbody] at hfound
  dsimp only at hfound
  exact hfound

end Order

end Sample

/-- The last second of the window is in it. -/
theorem verdict_ok_sent : Sample.sent.verdict 60 1700000060 = .ok () :=
  Setup.Passage.verdict_ok Sample.sent
    ⟨by decide +kernel, rfl, by decide⟩ (fun _ => by decide +kernel)
    (Sample.recovers_order Sample.sent rfl rfl (by decide +kernel))
    (by decide +kernel)

open Sample in
/-- An origin under a path refuses a call within its window, and so does one
that gets it without its key. -/
theorem verdict_may_fail :
    InWindow (sentUnderPath.now / 1000) 60 1700000000
      ∧ underPath.signer.Recovers (signingDigest (sentUnderPath.now / 1000)
        sentUnderPath.incoming.payload)
      ∧ sentUnderPath.verdict 60 1700000000 ≠ .ok ()
      ∧ InWindow (sentOnce.now / 1000) 60 1700000000
      ∧ plain.signer.Recovers (signingDigest (sentOnce.now / 1000)
        sentOnce.incoming.payload)
      ∧ sentOnce.verdict 60 1700000000 ≠ .ok () := by
  have hfield : plain.keyField ∉ Headers.reservedNames := by decide
  have hsecond : sentUnderPath.now / 1000 = 1700000000
      ∧ sentOnce.now / 1000 = 1700000000 := by decide +kernel
  refine ⟨by decide +kernel,
    recovers_order sentUnderPath rfl rfl hsecond.1, fun hok => ?_,
    by decide +kernel, recovers_order sentOnce rfl rfl hsecond.2,
    fun hok => ?_⟩
  · have hkey := sentUnderPath.received_key hfield fun _ => by decide +kernel
    have htarget : sentUnderPath.received.target = "/api/orders" := by
      decide +kernel
    have hfound := addressFor_of_verdict sentUnderPath rfl rfl hsecond.1 rfl
      rfl hok
    rw [hkey, htarget] at hfound
    exact addressFor_order.2.1 hfound
  · have hkey := sentOnce.received_key_of_scoped hfield (by decide +kernel)
    have htarget : sentOnce.received.target = "/orders" := by decide +kernel
    have hfound := addressFor_of_verdict sentOnce rfl rfl hsecond.2 rfl rfl
      hok
    rw [hkey, htarget] at hfound
    exact addressFor_order.2.2 hfound

end Origin

end OnceProxy
