/-
What an event does to a system, whatever answers its store.

`Deed B s e t` lists every way in which an event `e` can take a system from
`s` to `t`, over any backend: who is there, what the store answers, what
becomes of everything else. `step_deed` opens the definition of `step`, and
nothing else has to. An attempt of a keyed request (`Try`) and the end of a
flight (`Close`) have relations of their own, since several events share
them.

The store and the metrics are changed by conversations only. What they are
afterwards stands in the relations as the outcome of the conversation; all
that a deed does beside talking to the store is spelled out.
-/
import OnceProxy.Proofs.Flight
import OnceProxy.Proxy.System

namespace OnceProxy.Proxy

open Http Origin Store

namespace System

variable {σ : Type}

-- ============================================================== readings

/-- The flights of an instance. -/
def table? (s : System σ) (site : Nat) : Option (FlightTable Outcome) :=
  (s.instances[site]?).map (·.flights)

/-- The flights in progress at an instance. -/
def slots (s : System σ) (site : Nat) : List (EntryKey × FlightId) :=
  ((s.table? site).map (·.slots)).getD []

/-- The end of a flight of an instance, if it is over. -/
def outcome? (s : System σ) (site : Nat) (flight : FlightId) :
    Option (FlightEnd Outcome) :=
  (s.table? site).bind (·.outcome? flight)

/-- The clock is read off the wall. -/
theorem now_congr {s t : System σ} (hwall : t.wall = s.wall) :
    t.now = s.now := by
  unfold now
  rw [hwall]

theorem table?_of_instance {s : System σ} {site : Nat} {i : Instance}
    (hi : s.instances[site]? = some i) : s.table? site = some i.flights := by
  unfold table?
  rw [hi]
  rfl

/-- The policy in force at an instance. -/
def policy? (s : System σ) (site : Nat) : Option Policy :=
  (s.instances[site]?).map (·.policy)

theorem policy?_of_instance {s : System σ} {site : Nat} {i : Instance}
    (h : s.instances[site]? = some i) : s.policy? site = some i.policy := by
  unfold policy?
  rw [h]
  rfl

/-- Takes a caller off those that wait for a flight. -/
def dropWaiter (s : System σ) (caller : CallerId) : System σ :=
  { s with waiters := s.waiters.filter (·.caller ≠ caller) }

-- =============================================================== flights

/-- Changes of the flights that agree on an instance do the same to it. -/
theorem updateFlights_congr {s : System σ} {site : Nat} {i : Instance}
    (hi : s.instances[site]? = some i)
    {f g : FlightTable Outcome → FlightTable Outcome}
    (hfg : f i.flights = g i.flights) :
    s.updateFlights site f = s.updateFlights site g := by
  have hmod :
      s.instances.modify site (fun i => { i with flights := f i.flights })
        = s.instances.modify site
          fun i => { i with flights := g i.flights } := by
    refine List.ext_getElem? fun n => ?_
    rw [List.getElem?_modify, List.getElem?_modify]
    by_cases hn : site = n
    · subst hn
      simp only [if_true, hi, Option.map_eq_map, Option.map_some, hfg]
    · simp only [if_neg hn]
  unfold updateFlights
  rw [hmod]

/-- A change that leaves the flights alone leaves the system alone. -/
theorem updateFlights_id (s : System σ) (site : Nat) :
    s.updateFlights site id = s := by
  unfold updateFlights
  have hmod : s.instances.modify site (fun i => i) = s.instances :=
    List.modify_id site s.instances
  exact congrArg (fun is => { s with instances := is }) hmod

-- ============================================================== requests

/-- The keyed request that an event looks up, with the instance where it
does and the caller: one that arrives, or one that starts over. -/
def attempt? (s : System σ) : Event → Option (Nat × CallerId × Prepared)
  | .arrive site caller r => do
      let i ← s.instances[site]?
      match IdempotencyKey.ofRequest r.method r.key i.policy.requireKey with
      | .ok (some key) => some (site, caller, r.prepare key)
      | _ => none
  | .wake caller => do
      let w ← s.waiters.find? (·.caller = caller)
      match ← s.outcome? w.site w.flight with
      | .aborted =>
          if w.joined < maxLeadershipAttempts then
            some (w.site, w.caller, w.request)
          else none
      | .completed _ => none
  | _ => none

/-- A request that arrives with its key is looked up. -/
theorem attempt?_arrive {s : System σ} {site : Nat} {i : Instance}
    (there : s.instances[site]? = some i) {r : Incoming}
    {key : IdempotencyKey}
    (keyed : IdempotencyKey.ofRequest r.method r.key i.policy.requireKey
      = .ok (some key)) (caller : CallerId) :
    s.attempt? (.arrive site caller r)
      = some (site, caller, r.prepare key) := by
  unfold attempt?
  dsimp only
  rw [there, Option.bind_eq_bind, Option.bind_some, keyed]

/-- So is one whose flight was aborted, if it may start over. -/
theorem attempt?_wake {s : System σ} {w : Waiter}
    (waits : s.waiters.find? (·.caller = w.caller) = some w)
    (isOver : s.outcome? w.site w.flight = some .aborted)
    (more : w.joined < maxLeadershipAttempts) :
    s.attempt? (.wake w.caller) = some (w.site, w.caller, w.request) := by
  unfold attempt?
  dsimp only
  rw [waits, Option.bind_eq_bind, Option.bind_some, isOver,
    Option.bind_eq_bind, Option.bind_some]
  exact if_pos more

/-- Nothing else is looked up. -/
theorem attempt?_spec {s : System σ} {e : Event} {site : Nat}
    {caller : CallerId} {r : Prepared}
    (h : s.attempt? e = some (site, caller, r)) :
    (∃ q i key, e = .arrive site caller q ∧ s.instances[site]? = some i
      ∧ IdempotencyKey.ofRequest q.method q.key i.policy.requireKey
        = .ok (some key) ∧ r = q.prepare key)
    ∨ ∃ w, e = .wake caller ∧ s.waiters.find? (·.caller = caller) = some w
      ∧ s.outcome? w.site w.flight = some .aborted
      ∧ w.joined < maxLeadershipAttempts
      ∧ w.site = site ∧ w.caller = caller ∧ w.request = r := by
  unfold attempt? at h
  split at h
  · next there who q =>
    obtain ⟨i, hi, h⟩ := Option.bind_eq_some_iff.mp h
    split at h
    · next key hkey =>
      cases h
      exact .inl ⟨q, i, key, rfl, hi, hkey, rfl⟩
    · cases h
  · next who =>
    obtain ⟨w, hw, h⟩ := Option.bind_eq_some_iff.mp h
    have hcaller : w.caller = who := by
      have hp := List.find?_some hw
      simpa using hp
    obtain ⟨how, hhow, h⟩ := Option.bind_eq_some_iff.mp h
    split at h
    · split at h
      · next hmore =>
        cases h
        subst hcaller
        exact .inr ⟨w, rfl, hw, hhow, hmore, rfl, rfl, rfl⟩
      · cases h
    · cases h
  · cases h

-- =============================================================== parties

/-- What alone fits is found. -/
theorem find?_unique {β : Type} {l : List β} {p : β → Bool} {x : β}
    (hx : x ∈ l) (hp : p x = true) (own : ∀ y ∈ l, p y = true → y = x) :
    l.find? p = some x := by
  cases hfind : l.find? p with
  | none => exact absurd hp (List.find?_eq_none.mp hfind x hx)
  | some y =>
      rw [own y (List.mem_of_find?_eq_some hfind) (List.find?_some hfind)]

theorem findLeader_spec {s : System σ} {site : Nat} {flight : FlightId}
    {l : Leader} (h : s.findLeader site flight = some l) :
    l.site = site ∧ l.guard.id = flight := by
  have hp := List.find?_some h
  simpa using hp

theorem leaderOf_spec {s : System σ} {call : CallId} {l : Leader}
    (h : s.leaderOf call = some l) :
    ∃ c, l.waiting = some c ∧ c.call = call := by
  have hp := List.find?_some h
  cases hw : l.waiting with
  | none =>
      rw [hw] at hp
      cases hp
  | some c =>
      rw [hw] at hp
      exact ⟨c, rfl, by simpa using hp⟩

theorem passerOf_spec {s : System σ} {call : CallId} {p : Passer}
    (h : s.passerOf call = some p) : p.waiting.call = call := by
  have hp := List.find?_some h
  simpa using hp

-- ========================================================= conversations

/-- Nothing that a dialogue does depends on the metrics. -/
theorem run_metrics (B : Backend σ) (now : UInt64) (d : Dialogue α) (st : σ)
    (m m' : Metrics) :
    (d.run B now (st, m)).1 = (d.run B now (st, m')).1
      ∧ (d.run B now (st, m)).2.1 = (d.run B now (st, m')).2.1 := by
  induction d generalizing st m m' with
  | done a | fail e => exact ⟨rfl, rfl⟩
  | clock next ih => exact ih now st m m'
  | ask q next ih =>
      simp only [Dialogue.run]
      cases B.answer q now st with
      | mk answer st' =>
          cases answer with
          | ok a => exact ih a st' _ _
          | error e => exact ⟨rfl, rfl⟩

/-- The store, asked for the entry of a key, says that there is none. -/
def Lacks (B : Backend σ) (s : System σ) (key : EntryKey) : Prop :=
  (s.converse B (Cache.get key)).1 = .ok none

/-- At most the store and the metrics are other ones. -/
def Beside (s u : System σ) : Prop :=
  ∃ st m, u = { s with store := st, metrics := m }

section Conversations

variable {B : Backend σ} {s u : System σ}

theorem Beside.refl (s : System σ) : Beside s s := ⟨_, _, rfl⟩

theorem Beside.bump (h : Beside s u) (c : Counter) : Beside s (u.bump c) := by
  obtain ⟨st, m, rfl⟩ := h
  exact ⟨_, _, rfl⟩

theorem Beside.converse (h : Beside s u) (d : Dialogue α) :
    Beside s (u.converse B d).2 := by
  obtain ⟨st, m, rfl⟩ := h
  exact ⟨_, _, rfl⟩

/-- A look-up leaves everything else as it is. -/
theorem beside_lookup (r : Prepared) (policy : Policy) :
    Beside s (s.lookup B r policy).2 := by
  have hget := (Beside.refl s).converse (B := B)
    (Cache.get r.fingerprint.entryKey)
  unfold lookup
  split
  · next e v hlook =>
    rw [hlook] at hget
    exact hget
  · next v hlook =>
    rw [hlook] at hget
    exact hget.bump _
  · next v entry hlook =>
    rw [hlook] at hget
    split
    · cases policy.refreshOnReplay with
      | false => exact hget.bump _
      | true => exact (hget.bump _).converse _
    · exact hget.bump _

/-- So does what a leader makes of a reply. -/
theorem beside_resolve (l : Leader) (r : Reply) :
    Beside s (s.resolve B l r).2 := by
  unfold resolve
  cases r with
  | error e => exact (Beside.refl s).bump _
  | ok response =>
      have hbump := (Beside.refl s).bump
        (.originCalls (.status response.status.code))
      have hput := hbump.converse (B := B) (Cache.putIfAbsent l.guard.key
        (l.request.entryFor l.policy response s.now))
      dsimp only
      split
      · exact hbump
      · split
        all_goals
          next heq =>
          rw [show (s.bump (.originCalls
            (.status response.status.code))).now = s.now from rfl] at heq
          rw [heq] at hput
          exact hput

/-- A look-up without a reply has found that there is no entry. -/
theorem lacks_of_lookup {r : Prepared} {policy : Policy}
    (missed : s.lookup B r policy = (none, u)) :
    s.Lacks B r.fingerprint.entryKey := by
  unfold lookup at missed
  unfold Lacks
  split at missed
  · cases missed
  · next v hlook => rw [hlook]
  · split at missed
    · cases missed
    · cases missed

end Conversations

-- ============================================================== attempts

/-- What one attempt of a keyed request does. -/
inductive Try (B : Backend σ) (s : System σ) (caller : CallerId)
    (site : Nat) (r : Prepared) (policy : Policy) (joined : Nat) :
    System σ → Prop where
  /-- The look-up has a reply. -/
  | answered (x : Except ProxyError Replay) (st : σ) (m : Metrics)
      (found : s.lookup B r policy
        = (some x, { s with store := st, metrics := m })) :
      Try B s caller site r policy joined
        ({ s with store := st, metrics := m }.reply caller x)
  /-- It has none, and a flight of the key is in progress. -/
  | followed (id : FlightId) (st : σ) (m m' : Metrics)
      (missed : s.lookup B r policy
        = (none, { s with store := st, metrics := m }))
      (taken : (s.slots site).lookup r.fingerprint.entryKey = some id) :
      Try B s caller site r policy joined
        { s with
          store := st
          metrics := m'
          waiters := s.waiters ++ [⟨caller, site, r, policy, id, joined + 1⟩] }
  /-- It has none, and the request leads a new flight. -/
  | led (u : FlightTable Outcome) (st : σ) (m m' : Metrics)
      (missed : s.lookup B r policy
        = (none, { s with store := st, metrics := m }))
      (there : s.table? site = some u)
      (free : u.slots.lookup r.fingerprint.entryKey = none) :
      Try B s caller site r policy joined
        { s.updateFlights site fun t =>
            (t.join r.fingerprint.entryKey).2.2 with
          store := st
          metrics := m'
          leaders := s.leaders ++
            [⟨site, ⟨r.fingerprint.entryKey, u.nextId⟩, r, policy, none⟩]
          waiters := s.waiters ++
            [⟨caller, site, r, policy, u.nextId, joined + 1⟩] }

-- =============================================================== endings

/-- How an event ends the flight of a leader, and the store and metrics
afterwards. -/
inductive Close (B : Backend σ) (s : System σ) :
    Event → Leader → FlightEnd Outcome → σ → Metrics → Prop where
  /-- The second look fails. -/
  | failed (l : Leader) (e : StoreError) (st : σ) (m : Metrics)
      (leads : s.findLeader l.site l.guard.id = some l)
      (idle : l.waiting = none)
      (look : s.converse B (Cache.get l.guard.key)
        = (.error e, { s with store := st, metrics := m })) :
      Close B s (.lead l.site l.guard.id) l
        (.completed (.error (.storeUnavailable (.store e)))) st m
  /-- The second look finds an entry. -/
  | found (l : Leader) (e : Entry) (st : σ) (m : Metrics)
      (leads : s.findLeader l.site l.guard.id = some l)
      (idle : l.waiting = none)
      (look : s.converse B (Cache.get l.guard.key)
        = (.ok (some e), { s with store := st, metrics := m })) :
      Close B s (.lead l.site l.guard.id) l (.completed (.ok ⟨e, false⟩)) st m
  /-- The origin replies in time. -/
  | answered (l : Leader) (c : OpenCall) (r : Reply) (outcome : Outcome)
      (st : σ) (m : Metrics) (leads : s.leaderOf c.call = some l)
      (waits : l.waiting = some c) (inTime : s.elapsed ≤ c.deadline)
      (result : s.resolve B l r
        = (outcome, { s with store := st, metrics := m })) :
      Close B s (.answer c.call r) l (.completed outcome) st m
  /-- The call took too long. -/
  | late (l : Leader) (c : OpenCall) (leads : s.leaderOf c.call = some l)
      (waits : l.waiting = some c) (overdue : c.deadline ≤ s.elapsed) :
      Close B s (.timeout c.call) l
        (.completed (.error (timeoutError l.policy))) s.store
        (s.metrics.bump (.originCalls .timeout))
  /-- The leader dies. -/
  | died (l : Leader) (leads : s.findLeader l.site l.guard.id = some l) :
      Close B s (.crash l.site l.guard.id) l .aborted s.store s.metrics

-- ================================================================= deeds

/-- What an event can do. -/
inductive Deed (B : Backend σ) (s : System σ) : Event → System σ → Prop where
  /-- The key of a request is at fault. -/
  | refused (site : Nat) (caller : CallerId) (r : Incoming) (i : Instance)
      (fault : KeyFault) (there : s.instances[site]? = some i)
      (bad : IdempotencyKey.ofRequest r.method r.key i.policy.requireKey
        = .error fault) :
      Deed B s (.arrive site caller r)
        (s.reply caller (.error (.invalidRequest (.key fault))))
  /-- A request without key goes to the origin. -/
  | passed (site : Nat) (caller : CallerId) (r : Incoming) (i : Instance)
      (there : s.instances[site]? = some i)
      (keyless : IdempotencyKey.ofRequest r.method r.key i.policy.requireKey
        = .ok none) :
      Deed B s (.arrive site caller r)
        { s with
          calls := s.calls ++ [r.outbound i.policy s.now]
          passers := s.passers ++ [⟨caller, i.policy,
            ⟨s.calls.length, s.elapsed + i.policy.originTimeout⟩⟩] }
  /-- A request with a key makes its first attempt. -/
  | attempted (site : Nat) (caller : CallerId) (r : Incoming) (i : Instance)
      (key : IdempotencyKey) (t : System σ)
      (there : s.instances[site]? = some i)
      (keyed : IdempotencyKey.ofRequest r.method r.key i.policy.requireKey
        = .ok (some key))
      (attempt : Try B s caller site (r.prepare key) i.policy 0 t) :
      Deed B s (.arrive site caller r) t
  /-- A leader's second look finds nothing, and it calls the origin. -/
  | called (l : Leader) (st : σ) (m : Metrics)
      (leads : s.findLeader l.site l.guard.id = some l)
      (idle : l.waiting = none)
      (look : s.converse B (Cache.get l.guard.key)
        = (.ok none, { s with store := st, metrics := m })) :
      Deed B s (.lead l.site l.guard.id)
        { s with
          store := st
          metrics := m
          calls := s.calls ++ [l.request.outbound l.policy s.now]
          leaders := s.leaders.map fun o =>
            if o.site = l.site && o.guard.id = l.guard.id then
              { o with
                waiting := some
                  ⟨s.calls.length, s.elapsed + l.policy.originTimeout⟩ }
            else o }
  /-- A flight ends. -/
  | ended (e : Event) (l : Leader) (how : FlightEnd Outcome) (st : σ)
      (m : Metrics) (close : Close B s e l how st m) :
      Deed B s e ({ s with store := st, metrics := m }.finishFlight l how)
  /-- A call without key is answered. -/
  | passerAnswered (m : Metrics) (p : Passer) (answer : Reply)
      (waits : s.passerOf p.waiting.call = some p)
      (keyless : s.leaderOf p.waiting.call = none)
      (inTime : s.elapsed ≤ p.waiting.deadline) :
      Deed B s (.answer p.waiting.call answer)
        (({ s with metrics := m }.dropPasser p.caller).reply p.caller
          (match answer with
            | .error e => .error (.originUnavailable (.origin e))
            | .ok response => .ok (.passThrough response)))
  /-- A call without key took too long. -/
  | passerLate (m : Metrics) (p : Passer)
      (waits : s.passerOf p.waiting.call = some p)
      (keyless : s.leaderOf p.waiting.call = none)
      (overdue : p.waiting.deadline ≤ s.elapsed) :
      Deed B s (.timeout p.waiting.call)
        (({ s with metrics := m }.dropPasser p.caller).reply p.caller
          (.error (timeoutError p.policy)))
  /-- A waiting caller gets the outcome of its flight. -/
  | settled (w : Waiter) (outcome : Outcome)
      (waits : s.waiters.find? (·.caller = w.caller) = some w)
      (isOver : s.outcome? w.site w.flight = some (.completed outcome)) :
      Deed B s (.wake w.caller)
        ((s.dropWaiter w.caller).reply w.caller
          (settle outcome w.request.fingerprint))
  /-- Its flight was aborted, and it makes another attempt. -/
  | retried (w : Waiter) (t : System σ)
      (waits : s.waiters.find? (·.caller = w.caller) = some w)
      (isOver : s.outcome? w.site w.flight = some .aborted)
      (more : w.joined < maxLeadershipAttempts)
      (attempt : Try B (s.dropWaiter w.caller) w.caller w.site w.request
        w.policy w.joined t) :
      Deed B s (.wake w.caller) t
  /-- Its flight was aborted, and it gives up. -/
  | exhausted (w : Waiter)
      (waits : s.waiters.find? (·.caller = w.caller) = some w)
      (isOver : s.outcome? w.site w.flight = some .aborted)
      (noMore : maxLeadershipAttempts ≤ w.joined) :
      Deed B s (.wake w.caller)
        ((s.dropWaiter w.caller).reply w.caller
          (.error (.originUnavailable
            (.leadersAborted maxLeadershipAttempts))))
  | left (caller : CallerId) : Deed B s (.leave caller) (s.leave caller)
  | elapsed (ms : Nat) :
      Deed B s (.elapse ms) { s with elapsed := s.elapsed + ms }
  | advanced (ms : Nat) :
      Deed B s (.advance ms) { s with wall := s.wall + ms }
  | policySet (site : Nat) (policy : Policy) :
      Deed B s (.setPolicy site policy)
        { s with
          instances := s.instances.modify site fun i =>
            { i with policy := policy } }
  | swept (m : Metrics) :
      Deed B s .sweep
        { s with store := B.sweep s.now s.store, metrics := m }

-- ====================================================== events are deeds

section Steps

variable {B : Backend σ} {s t : System σ}

/-- An attempt of a request does one of the three things. -/
theorem attempt_try {site : Nat} {i : Instance}
    (hi : s.instances[site]? = some i) (caller : CallerId) (r : Prepared)
    (policy : Policy) (joined : Nat) :
    Try B s caller site r policy joined
      (s.attempt B caller site r policy joined) := by
  have hbeside := beside_lookup (B := B) (s := s) r policy
  unfold attempt
  cases hlook : s.lookup B r policy with
  | mk found u =>
      rw [hlook] at hbeside
      obtain ⟨st, m, rfl⟩ : Beside s u := hbeside
      cases found with
      | some x => exact .answered x st m hlook
      | none =>
          simp only [hi]
          cases hk : i.flights.slots.lookup r.fingerprint.entryKey with
          | some id =>
              have hsame : updateFlights { s with store := st, metrics := m }
                  site (fun _ => i.flights)
                  = { s with store := st, metrics := m } := by
                rw [updateFlights_congr (s := { s with
                  store := st, metrics := m }) hi
                  (f := fun _ => i.flights) (g := fun t => t) rfl]
                exact updateFlights_id _ site
              have htaken :
                  (s.slots site).lookup r.fingerprint.entryKey = some id := by
                unfold slots
                rw [table?_of_instance hi]
                exact hk
              simp only [FlightTable.join_of_some hk, hsame]
              exact .followed id st m _ hlook htaken
          | none =>
              have hjoin : updateFlights { s with store := st, metrics := m }
                  site (fun _ => (i.flights.join r.fingerprint.entryKey).2.2)
                  = updateFlights { s with store := st, metrics := m } site
                    fun t => (t.join r.fingerprint.entryKey).2.2 :=
                updateFlights_congr (s := { s with
                  store := st, metrics := m }) hi rfl
              have hrole : (i.flights.join r.fingerprint.entryKey).1 = .leader
                  ∧ (i.flights.join r.fingerprint.entryKey).2.1
                    = i.flights.nextId := by
                rw [FlightTable.join_of_none hk]
                exact ⟨rfl, rfl⟩
              rw [hjoin, hrole.1, hrole.2]
              exact .led i.flights st m _ hlook (table?_of_instance hi) hk

theorem arrive_deed {site : Nat} {caller : CallerId} {r : Incoming}
    (ht : s.arrive B site caller r = some t) :
    Deed B s (.arrive site caller r) t := by
  unfold arrive at ht
  cases hi : s.instances[site]? with
  | none =>
      rw [hi] at ht
      cases ht
  | some i =>
      rw [hi] at ht
      simp only [Option.bind_eq_bind, Option.bind_some] at ht
      cases hk : IdempotencyKey.ofRequest r.method r.key i.policy.requireKey
        with
      | error fault =>
          rw [hk] at ht
          cases ht
          exact .refused site caller r i fault hi hk
      | ok key =>
          rw [hk] at ht
          cases key with
          | none =>
              cases ht
              exact .passed site caller r i hi hk
          | some key =>
              cases ht
              exact .attempted site caller r i key _ hi hk
                (attempt_try hi caller _ i.policy 0)

theorem lead_deed {site : Nat} {flight : FlightId}
    (ht : s.lead B site flight = some t) :
    Deed B s (.lead site flight) t := by
  unfold lead at ht
  cases hl : s.findLeader site flight with
  | none =>
      rw [hl] at ht
      cases ht
  | some l =>
      obtain ⟨rfl, rfl⟩ := findLeader_spec hl
      rw [hl] at ht
      simp only [Option.bind_eq_bind, Option.bind_some] at ht
      cases hw : l.waiting with
      | some c =>
          rw [hw] at ht
          cases ht
      | none =>
          have hbeside := (Beside.refl s).converse (B := B)
            (Cache.get l.guard.key)
          cases hlook : s.converse B (Cache.get l.guard.key) with
          | mk found u =>
              rw [hlook] at hbeside
              obtain ⟨st, m, rfl⟩ : Beside s u := hbeside
              rw [hw, hlook] at ht
              cases found with
              | error e =>
                  cases ht
                  exact .ended _ l _ st m (.failed l e st m hl hw hlook)
              | ok found =>
                  cases found with
                  | some e =>
                      cases ht
                      exact .ended _ l _ st m (.found l e st m hl hw hlook)
                  | none =>
                      cases ht
                      exact .called l st m hl hw hlook

theorem answer_deed {call : CallId} {answer : Reply}
    (ht : s.answer B call answer = some t) :
    Deed B s (.answer call answer) t := by
  unfold System.answer at ht
  cases hl : s.leaderOf call with
  | some l =>
      obtain ⟨c, hw, rfl⟩ := leaderOf_spec hl
      rw [hl] at ht
      simp only [hw, Option.all_some, decide_eq_true_eq] at ht
      by_cases htime : s.elapsed ≤ c.deadline
      · rw [if_pos htime] at ht
        cases ht
        obtain ⟨st, m, hframe⟩ := beside_resolve (B := B) (s := s) l answer
        have hresult : s.resolve B l answer
            = ((s.resolve B l answer).1,
              { s with store := st, metrics := m }) := by
          rw [← hframe]
        rw [hframe]
        exact .ended _ l _ st m
          (.answered l c answer _ st m hl hw htime hresult)
      · rw [if_neg htime] at ht
        cases ht
  | none =>
      cases hp : s.passerOf call with
      | none =>
          rw [hl, hp] at ht
          cases ht
      | some p =>
          obtain rfl := passerOf_spec hp
          rw [hl, hp] at ht
          simp only [Option.bind_eq_bind, Option.bind_some] at ht
          by_cases htime : s.elapsed ≤ p.waiting.deadline
          · rw [if_pos htime] at ht
            cases answer with
            | error e =>
                cases ht
                exact .passerAnswered _ p (.error e) hp hl htime
            | ok response =>
                cases ht
                exact .passerAnswered _ p (.ok response) hp hl htime
          · rw [if_neg htime] at ht
            cases ht

theorem timeout_deed {call : CallId} (ht : s.timeout call = some t) :
    Deed B s (.timeout call) t := by
  unfold timeout at ht
  cases hl : s.leaderOf call with
  | some l =>
      obtain ⟨c, hw, rfl⟩ := leaderOf_spec hl
      rw [hl] at ht
      simp only [hw, Option.all_some, decide_eq_true_eq] at ht
      by_cases htime : c.deadline ≤ s.elapsed
      · rw [if_pos htime] at ht
        cases ht
        exact .ended _ l _ s.store _ (.late l c hl hw htime)
      · rw [if_neg htime] at ht
        cases ht
  | none =>
      cases hp : s.passerOf call with
      | none =>
          rw [hl, hp] at ht
          cases ht
      | some p =>
          obtain rfl := passerOf_spec hp
          rw [hl, hp] at ht
          simp only [Option.bind_eq_bind, Option.bind_some] at ht
          by_cases htime : p.waiting.deadline ≤ s.elapsed
          · rw [if_pos htime] at ht
            cases ht
            exact .passerLate _ p hp hl htime
          · rw [if_neg htime] at ht
            cases ht

theorem crash_deed {site : Nat} {flight : FlightId}
    (ht : s.crash site flight = some t) :
    Deed B s (.crash site flight) t := by
  unfold crash at ht
  cases hl : s.findLeader site flight with
  | none =>
      rw [hl] at ht
      cases ht
  | some l =>
      obtain ⟨rfl, rfl⟩ := findLeader_spec hl
      rw [hl] at ht
      cases ht
      exact .ended _ l _ s.store s.metrics (.died l hl)

theorem wake_deed {caller : CallerId} (ht : s.wake B caller = some t) :
    Deed B s (.wake caller) t := by
  unfold wake at ht
  cases hw : s.waiters.find? (·.caller = caller) with
  | none =>
      rw [hw] at ht
      cases ht
  | some w =>
      have hcaller : w.caller = caller := by
        have hp := List.find?_some hw
        simpa using hp
      subst hcaller
      cases hi : s.instances[w.site]? with
      | none =>
          rw [hw] at ht
          simp only [Option.bind_eq_bind, Option.bind_some, hi] at ht
          cases ht
      | some i =>
          rw [hw] at ht
          simp only [Option.bind_eq_bind, Option.bind_some, hi] at ht
          have hover :
              s.outcome? w.site w.flight = i.flights.outcome? w.flight := by
            unfold outcome?
            rw [table?_of_instance hi]
            rfl
          cases ho : i.flights.outcome? w.flight with
          | none =>
              rw [ho] at ht
              cases ht
          | some how =>
              rw [ho] at ht hover
              cases how with
              | completed outcome =>
                  cases ht
                  exact .settled w outcome hw hover
              | aborted =>
                  simp only [Option.bind_some] at ht
                  by_cases hmore : w.joined < maxLeadershipAttempts
                  · rw [if_pos hmore] at ht
                    cases ht
                    refine .retried w _ hw hover hmore ?_
                    exact attempt_try (s := s.dropWaiter w.caller) hi
                      w.caller w.request w.policy w.joined
                  · rw [if_neg hmore] at ht
                    cases ht
                    exact .exhausted w hw hover (Nat.le_of_not_lt hmore)

/-- Whatever an event does is a deed. -/
theorem step_deed {e : Event} (ht : s.step B e = some t) : Deed B s e t := by
  cases e with
  | arrive site caller r => exact arrive_deed ht
  | lead site flight => exact lead_deed ht
  | answer call answer => exact answer_deed ht
  | timeout call => exact timeout_deed ht
  | crash site flight => exact crash_deed ht
  | wake caller => exact wake_deed ht
  | leave caller =>
      cases ht
      exact .left caller
  | elapse ms =>
      cases ht
      exact .elapsed ms
  | advance ms =>
      cases ht
      exact .advanced ms
  | setPolicy site policy =>
      cases ht
      exact .policySet site policy
  | sweep =>
      cases ht
      exact .swept _

-- ======================================================= what can happen

theorem exists_step_arrive {site : Nat} {i : Instance}
    (there : s.instances[site]? = some i) (caller : CallerId)
    (r : Incoming) : ∃ t, s.step B (.arrive site caller r) = some t := by
  show ∃ t, s.arrive B site caller r = some t
  unfold arrive
  rw [there]
  simp only [Option.bind_eq_bind, Option.bind_some]
  split
  · exact ⟨_, rfl⟩
  · exact ⟨_, rfl⟩
  · exact ⟨_, rfl⟩

theorem exists_step_lead {l : Leader}
    (leads : s.findLeader l.site l.guard.id = some l)
    (idle : l.waiting = none) :
    ∃ t, s.step B (.lead l.site l.guard.id) = some t := by
  show ∃ t, s.lead B l.site l.guard.id = some t
  unfold lead
  rw [leads]
  simp only [Option.bind_eq_bind, Option.bind_some, idle,
    Option.isSome_none, Bool.false_eq_true, if_false]
  split
  · exact ⟨_, rfl⟩
  · exact ⟨_, rfl⟩
  · exact ⟨_, rfl⟩

theorem exists_step_answer {l : Leader} {c : OpenCall}
    (leads : s.leaderOf c.call = some l) (waits : l.waiting = some c)
    (inTime : s.elapsed ≤ c.deadline) (r : Reply) :
    ∃ t, s.step B (.answer c.call r) = some t := by
  show ∃ t, s.answer B c.call r = some t
  unfold System.answer
  simp only [leads, waits, Option.all_some, decide_eq_true inTime, if_true]
  exact ⟨_, rfl⟩

theorem exists_step_timeout {l : Leader} {c : OpenCall}
    (leads : s.leaderOf c.call = some l) (waits : l.waiting = some c)
    (overdue : c.deadline ≤ s.elapsed) :
    ∃ t, s.step B (.timeout c.call) = some t := by
  show ∃ t, s.timeout c.call = some t
  unfold timeout
  simp only [leads, waits, Option.all_some, decide_eq_true overdue, if_true]
  exact ⟨_, rfl⟩

theorem exists_step_crash {l : Leader}
    (leads : s.findLeader l.site l.guard.id = some l) :
    ∃ t, s.step B (.crash l.site l.guard.id) = some t := by
  show ∃ t, s.crash l.site l.guard.id = some t
  unfold crash
  rw [leads]
  exact ⟨_, rfl⟩

theorem exists_step_wake {w : Waiter} {how : FlightEnd Outcome}
    (waits : s.waiters.find? (·.caller = w.caller) = some w)
    (isOver : s.outcome? w.site w.flight = some how) :
    ∃ t, s.step B (.wake w.caller) = some t := by
  obtain ⟨table, htable, hover⟩ := Option.bind_eq_some_iff.mp isOver
  obtain ⟨i, hi, rfl⟩ := Option.map_eq_some_iff.mp htable
  show ∃ t, s.wake B w.caller = some t
  unfold wake
  simp only [Option.bind_eq_bind, waits, Option.bind_some, hi, hover]
  cases how with
  | completed outcome => exact ⟨_, rfl⟩
  | aborted =>
      dsimp only
      split
      · exact ⟨_, rfl⟩
      · exact ⟨_, rfl⟩

end Steps

end System

end OnceProxy.Proxy
