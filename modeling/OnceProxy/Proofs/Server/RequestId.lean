/-
How far a request's id gets.

The id is chosen before anything else is done with a request, and it is the
only one of its field in the request from then on and in whatever response
comes back. Towards the origin it is a field like any other: it crosses
unless the caller's `connection` field lists it, and then no id crosses, be
it the caller's or a generated one.
-/
import OnceProxy.Proofs.Http.Hygiene
import OnceProxy.Proofs.Origin.Verification
import OnceProxy.Proofs.Proxy.Signatures
import OnceProxy.Server.Trial

namespace OnceProxy.Server

open Http Origin Proxy Store System

variable {h : Headers} {n : FieldName} {v id generated : FieldValue}

-- ============================================================= the choice

/-- An id that may be kept: there is something of it, it is not too long, and
it has tabs and visible characters only. -/
def WellFormed (v : FieldValue) : Prop :=
  v.octets ≠ [] ∧ v.octets.length ≤ 128
    ∧ ∀ o ∈ v.octets, o = 9 ∨ (0x20 ≤ o ∧ o ≤ 0x7e)

/-- The id that is due to a request: its first one, if that is well formed,
and otherwise the generated one. -/
structure IsIdOf (h : Headers) (generated id : FieldValue) : Prop where
  kept : ∀ v, (h.values .requestId).head? = some v → WellFormed v → id = v
  replaced : (∀ v, (h.values .requestId).head? = some v → ¬ WellFormed v) →
    id = generated

theorem keepsRequestId_iff : keepsRequestId v = true ↔ WellFormed v := by
  unfold keepsRequestId WellFormed
  rw [Bool.and_eq_true, Bool.and_eq_true, decide_eq_true_eq, Option.isSome_iff_exists,
    and_assoc]
  simp only [Headers.text?_eq_some_iff, exists_and_left, exists_eq', and_true]
  simp [maxRequestIdLength]

theorem isIdOf_requestId (h : Headers) (generated : FieldValue) :
    IsIdOf h generated (requestId h generated) := by
  unfold requestId Headers.first?
  constructor
  · intro v hv hwell
    simp only [hv]
    rw [if_pos (keepsRequestId_iff.mpr hwell)]
  · intro hnone
    cases hfirst : (h.values .requestId).head? with
    | none => rfl
    | some v =>
        dsimp only
        rw [if_neg (mt keepsRequestId_iff.mp (hnone v hfirst))]

-- ============================================================= the way in

theorem values_tagged_self : (tagged h id).values .requestId = [id] := by
  unfold tagged
  rw [Headers.values_insert, if_pos rfl]

theorem values_tagged_of_ne (hn : n ≠ .requestId) :
    (tagged h id).values n = h.values n := by
  unfold tagged
  rw [Headers.values_insert, if_neg hn]

/-- The id lists nothing. -/
theorem listed_tagged : (tagged h id).Listed n ↔ h.Listed n := by
  unfold Headers.Listed
  rw [values_tagged_of_ne (by decide)]

theorem rawKey_tagged (hn : n ≠ .requestId) :
    rawKey (tagged h id) n = rawKey h n := by
  unfold rawKey Headers.first?
  rw [values_tagged_of_ne hn]

/-- What the proxy gets to see of a request has its id. -/
theorem Service.headers_of_admission {s : Service} {now : UInt64} {r : Inbound}
    {isComplete : Bool} {q : Incoming}
    (h : s.admission now id r isComplete = .admitted q) :
    q.headers = tagged r.headers id := by
  unfold Service.admission Service.admitTagged at h
  split at h
  · cases h
  · split at h
    · cases h
    · split at h
      · cases h
      · split at h
        · cases h
        · next incoming hbuffer =>
          obtain ⟨key, -, rfl⟩ := buffer_eq_ok hbuffer
          split at h
          · cases h
            rfl
          · cases h

-- ============================================================ the way out

/-- A trial's server reads a request off what arrives. -/
structure Arrival.ReadsAs (a : Arrival) (r : Inbound) (isComplete : Bool) : Prop where
  method : r.method = a.method
  target : Uri.parse a.target = .ok r.target
  headers : r.headers = a.headers.onWire
  body : framedBody r.headers a.rest = .ok (r.body, isComplete)

/-- It answers under the id of the request. -/
theorem Trial.send_of_readsAs {a : Arrival} {r : Inbound} {isComplete : Bool}
    (hr : a.ReadsAs r isComplete) (t : Trial) (generated : FieldValue) :
    (t.send a generated).1
      = (taggedResponse (t.serve (requestId r.headers generated) r isComplete).1
        (requestId r.headers generated)).onWire r.method := by
  unfold Trial.send
  dsimp only
  rw [hr.target, ← hr.headers, hr.body, ← hr.method]

/-- An id gets across as it is. -/
theorem trimmed_requestId {h : Headers} (hgenerated : generated.trimmed = generated) :
    (requestId h.onWire generated).trimmed = requestId h.onWire generated := by
  unfold requestId Headers.first?
  rw [Headers.values_onWire, List.head?_map]
  cases (h.values .requestId).head? with
  | none => exact hgenerated
  | some v =>
      dsimp only [Option.map_some]
      split
      · exact v.trimmed_trimmed
      · exact hgenerated

/-- What comes back has the id, unless a status that only informs is what is
to be sent, and the server says that it failed. -/
theorem Trial.values_send {a : Arrival} {r : Inbound} {isComplete : Bool}
    (hr : a.ReadsAs r isComplete) (t : Trial)
    (hgenerated : generated.trimmed = generated) :
    (t.send a generated).1.headers.values .requestId
      = if (t.serve (requestId r.headers generated) r isComplete).1.status.isInformational
        then [] else [requestId r.headers generated] := by
  rw [t.send_of_readsAs hr]
  unfold taggedResponse Response.onWire
  dsimp only
  split
  · rfl
  · dsimp only
    rw [Headers.values_onWire, values_tagged_self, List.map_singleton, hr.headers,
      trimmed_requestId hgenerated]

/-- The id is neither a hop-by-hop field nor one that the proxy writes
itself, so only the caller can keep it back. -/
theorem values_forwardable_tagged (h : Headers) (id : FieldValue) :
    (¬ h.Listed .requestId →
      (tagged h id).forwardable.values .requestId = [id])
    ∧ (h.Listed .requestId →
      (tagged h id).forwardable.values .requestId = []) := by
  have hhop : FieldName.requestId ∉ FieldName.hopByHop := by decide
  have hreserved : Headers.reservedNames.contains FieldName.requestId = false := by
    decide
  have hscoped : (tagged h id).isConnectionScoped .requestId = true
      ↔ h.Listed .requestId := by
    rw [Headers.isConnectionScoped_iff, listed_tagged]
    exact or_iff_right hhop
  rw [Headers.values_forwardable, hreserved, Bool.or_false]
  constructor
  · intro hfree
    rw [if_neg (mt hscoped.mp hfree), values_tagged_self]
  · intro hlisted
    rw [if_pos (hscoped.mpr hlisted)]

/-- The call for a request that has its id. -/
theorem values_requestId_call {σ : Type} {B : Backend σ} {wall : Int} {store : σ}
    {policies : List Policy} {q : Incoming} {p : Policy} {instant : UInt64}
    {o : Outbound} (hq : q.headers = tagged h id)
    (hcauses : Causes B (System.start wall store policies) q p instant o) :
    (¬ h.Listed .requestId → o.headers.values .requestId = [id])
    ∧ (h.Listed .requestId → o.headers.values .requestId = []) := by
  have hunsigned : FieldName.requestId ∉ FieldName.signatureFields := by decide
  rw [Incoming.values_call hcauses.call hunsigned, hq]
  exact values_forwardable_tagged h id

-- ============================================================ the theorem

/-- A request has one id: its own first one, if that is well formed, and
otherwise the generated one. Whatever response is made for it, this id is the
only one there, and so it is in what a trial's server sends back for what it
reads as the request, be it the gate's answer, a reply of the proxy or word
that it took too long; only where the status is one that a server does not
send, what it sends in its place has none. And whenever the proxy calls the
origin for the request, in any run, this id is the only one in the call,
unless the `connection` field of the request lists it: then the call has
none. -/
theorem request_id_crosses (service : Service) (r : Inbound)
    (generated : FieldValue) :
    ∃ id, requestId r.headers generated = id ∧ IsIdOf r.headers generated id
      ∧ (∀ response, (taggedResponse response id).headers.values .requestId = [id])
      ∧ (∀ (t : Trial) a isComplete, a.ReadsAs r isComplete →
        generated.trimmed = generated →
        (t.send a generated).1.headers.values .requestId
          = if (t.serve id r isComplete).1.status.isInformational then [] else [id])
      ∧ ∀ now isComplete q, service.admission now id r isComplete = .admitted q →
        ∀ (σ : Type) (B : Backend σ) wall store policies p instant o,
          Causes B (System.start wall store policies) q p instant o →
          (¬ r.headers.Listed .requestId → o.headers.values .requestId = [id])
          ∧ (r.headers.Listed .requestId → o.headers.values .requestId = []) := by
  refine ⟨_, rfl, isIdOf_requestId r.headers generated, ?_, ?_, ?_⟩
  · intro response
    exact values_tagged_self
  · intro t a isComplete hr hgenerated
    exact t.values_send hr hgenerated
  · intro now isComplete q hadmitted σ B wall store policies p instant o hcauses
    exact values_requestId_call (Service.headers_of_admission hadmitted) hcauses

-- ================================================================= an order

namespace Sample

open Origin.Sample (plain rawKey_inbound hasKey_incoming)

/-- A service that lets every request pass. -/
def service : Service := ⟨plain.keyField, 3, 1, ⟨false, []⟩⟩

variable (more : List Field) (id : FieldValue)

/-- The order as the proxy sees it. -/
def seen : Incoming :=
  { Origin.Sample.incoming more with headers := tagged (Origin.Sample.inbound more).headers id }

theorem admission_inbound :
    service.admission 0 id (Origin.Sample.inbound more) true = .admitted (seen more id) := by
  have hbuffer : buffer { Origin.Sample.inbound more with
      headers := tagged (Origin.Sample.inbound more).headers id }
      plain.keyField 3 = .ok (seen more id) := by
    unfold buffer
    rw [rawKey_tagged (by decide), rawKey_inbound]
    rfl
  have hroutes : Service.routes (Origin.Sample.inbound more).target = true := by
    show Service.routes ⟨none, "", Proxy.Sample.order.path⟩ = true
    decide +kernel
  unfold Service.admission Service.admitTagged AuthPolicy.authorize
  simp only [service, hroutes, hbuffer]
  rfl

/-- It is called for, if it comes in first. -/
theorem causes_seen : Causes MemoryStore.backend (System.start 0 .empty [Proxy.Sample.policy])
    (seen more id) Proxy.Sample.policy 0
    (((seen more id).prepare Proxy.Sample.orderKey).outbound Proxy.Sample.policy 0) :=
  causes_first 0 Proxy.Sample.policy (hasKey_incoming more)

/-- The caller names the order, twice. -/
def named : List Field :=
  [(.requestId, .ofText "trace-1"), (.requestId, .ofText "trace-2")]

/-- A server that lets every request pass, before an origin that nobody
listens for. -/
def trial : Trial where
  world := ⟨⟨none⟩, [], "", "", none⟩
  config := {}
  started := ⟨service, Proxy.Sample.policy, plain.base, 0, .empty⟩
  service := service
  rehearsal := .start (System.start 0 .empty [Proxy.Sample.policy])
    (fun _ _ => some ⟨0, .reply (.error (.failed "refused"))⟩) false

/-- The order as it arrives. -/
def arrival : Arrival where
  method := Proxy.Sample.order.method
  target := Proxy.Sample.order.path
  headers := (Origin.Sample.inbound more).headers
  rest := Proxy.Sample.order.body

/-- The caller names the order, and wants the name kept from the origin. -/
def withheld : List Field :=
  [(.requestId, .ofText "trace-1"), (.connection, .ofText "close, x-request-id")]

end Sample

open Sample in
/-- An order with two ids of its own is called for under the first one. -/
theorem request_id_crosses_named : ∃ o,
    service.admission 0 (.ofText "trace-1") (Origin.Sample.inbound named) true
      = .admitted (seen named (.ofText "trace-1"))
    ∧ Causes MemoryStore.backend (System.start 0 .empty [Proxy.Sample.policy])
      (seen named (.ofText "trace-1")) Proxy.Sample.policy 0 o
    ∧ o.headers.values .requestId = [.ofText "trace-1"]
    ∧ (trial.send (arrival named) (.ofText "generated")).1.headers.values .requestId
      = [.ofText "trace-1"] := by
  have hreads : (arrival named).ReadsAs (Origin.Sample.inbound named) true :=
    ⟨rfl, by decide +kernel, by decide +kernel, rfl⟩
  have hserved : (trial.serve (.ofText "trace-1") (Origin.Sample.inbound named)
      true).1.status.isInformational = false := by decide +kernel
  have hunlisted : ¬ (Origin.Sample.inbound named).headers.Listed .requestId := by
    rw [← Headers.mem_connectionListed]
    decide +kernel
  have hfirst : requestId (Origin.Sample.inbound named).headers (.ofText "generated")
      = .ofText "trace-1" := by decide +kernel
  obtain ⟨id, hid, -, -, hsent, hcalls⟩ :=
    request_id_crosses service (Origin.Sample.inbound named) (.ofText "generated")
  rw [hfirst] at hid
  subst hid
  have hadmitted := admission_inbound named (.ofText "trace-1")
  have hcauses := causes_seen named (.ofText "trace-1")
  refine ⟨_, hadmitted, hcauses,
    (hcalls _ _ _ hadmitted _ _ _ _ _ _ _ _ hcauses).1 hunlisted, ?_⟩
  rw [hsent trial (arrival named) true hreads (by decide +kernel), hserved]
  rfl

open Sample in
/-- An id that is kept does not get to the origin, where the caller's
`connection` field lists it. -/
theorem request_id_may_be_lost : ∃ o,
    IsIdOf (Origin.Sample.inbound withheld).headers (.ofText "generated") (.ofText "trace-1")
    ∧ service.admission 0 (.ofText "trace-1") (Origin.Sample.inbound withheld) true
      = .admitted (seen withheld (.ofText "trace-1"))
    ∧ Causes MemoryStore.backend (System.start 0 .empty [Proxy.Sample.policy])
      (seen withheld (.ofText "trace-1")) Proxy.Sample.policy 0 o
    ∧ o.headers.values .requestId = [] := by
  have hlisted : (Origin.Sample.inbound withheld).headers.Listed .requestId := by
    rw [← Headers.mem_connectionListed]
    decide +kernel
  have hfirst : requestId (Origin.Sample.inbound withheld).headers (.ofText "generated")
      = .ofText "trace-1" := by decide +kernel
  have hdue := isIdOf_requestId (Origin.Sample.inbound withheld).headers (.ofText "generated")
  rw [hfirst] at hdue
  have hcauses := causes_seen withheld (.ofText "trace-1")
  exact ⟨_, hdue, admission_inbound withheld _, hcauses,
    (values_requestId_call rfl hcauses).2 hlisted⟩

end OnceProxy.Server
