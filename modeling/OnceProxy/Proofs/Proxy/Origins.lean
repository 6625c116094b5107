/-
Where everyone at work comes from.

A leader and a waiting caller work for a keyed request that arrived at
their instance earlier in the run, a caller without key for a request
without one (`origins_after`). A waiting caller joined its flight while the
flight was in progress, after its request had arrived; a leader that waits
for a call has started it, at an instant when no entry of its key was live.
-/
import OnceProxy.Proofs.Proxy.Run

namespace OnceProxy.Proxy

/-- The request carries this key. -/
def Incoming.HasKey (r : Incoming) (key : IdempotencyKey) : Prop :=
  ∃ raw, r.key = some raw ∧ IdempotencyKey.parse raw = .ok key

/-- A key that is read from a request is one that it carries. -/
theorem Incoming.hasKey_of_ofRequest {r : Incoming} {required : Bool}
    {key : IdempotencyKey}
    (h : IdempotencyKey.ofRequest r.method r.key required
      = .ok (some key)) : r.HasKey key := by
  unfold IdempotencyKey.ofRequest at h
  cases hraw : r.key with
  | none =>
      rw [hraw] at h
      dsimp only at h
      split at h <;> cases h
  | some raw =>
      rw [hraw] at h
      dsimp only at h
      cases hkey : IdempotencyKey.parse raw with
      | error fault =>
          rw [hkey] at h
          cases h
      | ok k =>
          rw [hkey] at h
          cases h
          exact ⟨raw, hraw, hkey⟩

/-- A key that is carried is read, whatever is required. -/
theorem Incoming.HasKey.ofRequest {r : Incoming} {key : IdempotencyKey}
    (h : r.HasKey key) (required : Bool) :
    IdempotencyKey.ofRequest r.method r.key required = .ok (some key) := by
  obtain ⟨raw, hraw, hparse⟩ := h
  unfold IdempotencyKey.ofRequest
  rw [hraw]
  show (IdempotencyKey.parse raw).map some = .ok (some key)
  rw [hparse]
  rfl

/-- A request carries one key. -/
theorem Incoming.HasKey.unique {r : Incoming} {k key : IdempotencyKey}
    (h : r.HasKey k) (h' : r.HasKey key) : k = key := by
  obtain ⟨raw, hraw, hparse⟩ := h
  obtain ⟨raw', hraw', hparse'⟩ := h'
  rw [hraw] at hraw'
  cases hraw'
  rw [hparse] at hparse'
  cases hparse'
  rfl

/-- A request from which no key is read carries none. -/
theorem Incoming.key_eq_none_of_ofRequest {r : Incoming} {required : Bool}
    (h : IdempotencyKey.ofRequest r.method r.key required = .ok none) :
    r.key = none := by
  unfold IdempotencyKey.ofRequest at h
  cases hraw : r.key with
  | none => rfl
  | some raw =>
      rw [hraw] at h
      dsimp only at h
      cases hkey : IdempotencyKey.parse raw with
      | error fault =>
          rw [hkey] at h
          cases h
      | ok k =>
          rw [hkey] at h
          cases h

namespace System

open Store

-- ================================================================= calls

/-- The event at an instant starts the call of a leader. -/
def StartsCall (s₀ : System MemoryStore) (events : List Event) (i : Nat)
    (s : System MemoryStore) (l : Leader) : Prop :=
  s₀.after? events i = some s ∧ events[i]? = some (.lead l.site l.guard.id)
    ∧ s.findLeader l.site l.guard.id = some l
    ∧ ∃ t, s₀.after? events (i + 1) = some t
      ∧ s.calls.length < t.calls.length

-- =============================================================== origins

/-- The event at an instant is the arrival of a keyed request, which is
this one when prepared. -/
def ArrivedAt (events : List Event) (a site : Nat) (caller : CallerId)
    (r : Prepared) : Prop :=
  ∃ q key, events[a]? = some (.arrive site caller q) ∧ q.HasKey key
    ∧ r = q.prepare key

/-- What everyone at work at an instant comes from. -/
structure Origins (s₀ : System MemoryStore) (events : List Event) (i : Nat)
    (s : System MemoryStore) : Prop where
  waiters : ∀ w ∈ s.waiters, ∃ a m u, a ≤ m ∧ m < i
    ∧ ArrivedAt events a w.site w.caller w.request
    ∧ s₀.after? events (m + 1) = some u
    ∧ (w.request.fingerprint.entryKey, w.flight) ∈ u.slots w.site
  leaders : ∀ l ∈ s.leaders, ∃ a caller, a < i
    ∧ ArrivedAt events a l.site caller l.request
  calls : ∀ l ∈ s.leaders, ∀ c, l.waiting = some c → ∃ m u, m < i
    ∧ StartsCall s₀ events m u { l with waiting := none }
    ∧ c = ⟨u.calls.length, u.elapsed + l.policy.originTimeout⟩
  passers : ∀ p ∈ s.passers, ∃ a site r, a < i
    ∧ events[a]? = some (.arrive site p.caller r) ∧ r.key = none

section Runs

variable {s₀ : System MemoryStore} {events : List Event}

/-- A keyed request that is looked up has arrived. -/
theorem Origins.attempt {i : Nat} {s : System MemoryStore}
    (h : Origins s₀ events i s) {e : Event} (he : events[i]? = some e)
    {site : Nat} {caller : CallerId} {r : Prepared}
    (hattempt : s.attempt? e = some (site, caller, r)) :
    ∃ a, a ≤ i ∧ ArrivedAt events a site caller r := by
  rcases attempt?_spec hattempt with ⟨q, j, key, rfl, -, hkey, rfl⟩
    | ⟨w, rfl, hw, -, -, rfl, rfl, rfl⟩
  · exact ⟨i, Nat.le_refl i, q, key, he,
      Incoming.hasKey_of_ofRequest hkey, rfl⟩
  · obtain ⟨a, m, u, ham, hmi, harrived, -⟩ :=
      h.waiters w (List.mem_of_find?_eq_some hw)
    exact ⟨a, Nat.le_of_lt (Nat.lt_of_le_of_lt ham hmi), harrived⟩

variable (fresh : s₀.Fresh) (fits : ∀ e ∈ events, e.Fits)

include fresh fits

omit fits in
/-- At the start nobody is at work. -/
theorem origins_start : Origins s₀ events 0 s₀ := by
  refine ⟨fun w hw => ?_, fun l hl => ?_, fun l hl => ?_, fun p hp => ?_⟩
  · rw [fresh.waiters] at hw
    cases hw
  · rw [fresh.leaders] at hl
    cases hl
  · rw [fresh.leaders] at hl
    cases hl
  · rw [fresh.passers] at hp
    cases hp

omit fresh fits in
/-- Whoever is at work after an event was before, or the event brings or
moves its request. -/
theorem Origins.next {n : Nat} {u v : System MemoryStore}
    (h : Origins s₀ events n u) {e : Event} (he : events[n]? = some e)
    (hu : s₀.after? events n = some u)
    (hv : s₀.after? events (n + 1) = some v) (hcoherent : u.Coherent)
    (hdeed : Deed MemoryStore.backend u e v) :
    Origins s₀ events (n + 1) v := by
  refine ⟨fun w hw => ?_, fun l hl => ?_, fun l hl c hc => ?_,
    fun p hp => ?_⟩
  · rcases hdeed.line.mem_waiters hw with hold | ⟨hattempt, hslot⟩
    · obtain ⟨a, m, x, ham, hmn, hrest⟩ := h.waiters w hold
      exact ⟨a, m, x, ham, Nat.lt_succ_of_lt hmn, hrest⟩
    · obtain ⟨a, han, harrived⟩ := h.attempt he hattempt
      exact ⟨a, n, v, han, Nat.lt_succ_self n, harrived, hv, hslot⟩
  · rcases hdeed.mem_leaders hcoherent hl with
      hold | ⟨-, caller, hattempt⟩ | ⟨m, hm, -, -, rfl, -⟩
    · obtain ⟨a, caller, han, harrived⟩ := h.leaders l hold
      exact ⟨a, caller, Nat.lt_succ_of_lt han, harrived⟩
    · obtain ⟨a, han, harrived⟩ := h.attempt he hattempt
      exact ⟨a, caller, Nat.lt_succ_of_le han, harrived⟩
    · -- it starts its call, and was there without one
      obtain ⟨a, caller, han, harrived⟩ := h.leaders m hm
      exact ⟨a, caller, Nat.lt_succ_of_lt han, harrived⟩
  · rcases hdeed.mem_leaders hcoherent hl with
      hold | ⟨hidle, -⟩ | ⟨⟨site, g, r, p, w⟩, hm, rfl, rfl, rfl, hcalls⟩
    · obtain ⟨m, x, hmn, hrest⟩ := h.calls l hold c hc
      exact ⟨m, x, Nat.lt_succ_of_lt hmn, hrest⟩
    · rw [hidle] at hc
      cases hc
    · cases hc
      have hfind := hcoherent.findLeader hm
      refine ⟨n, u, Nat.lt_succ_self n, ⟨hu, he, hfind, v, hv, ?_⟩, rfl⟩
      rw [hcalls, List.length_append]
      exact Nat.lt_succ_self _
  · rcases hdeed.mem_passers hp with hold | ⟨site, r, j, rfl, -, hkey, -⟩
    · obtain ⟨a, site, r, han, hrest⟩ := h.passers p hold
      exact ⟨a, site, r, Nat.lt_succ_of_lt han, hrest⟩
    · exact ⟨n, site, r, Nat.lt_succ_self n, he,
        Incoming.key_eq_none_of_ofRequest hkey⟩

/-- Everyone at work comes from somewhere. -/
theorem origins_after {i : Nat} (hi : i ≤ events.length)
    {s : System MemoryStore} (hs : s₀.after? events i = some s) :
    Origins s₀ events i s := by
  refine move_induction fresh fits (P := Origins s₀ events) after?_zero
    (origins_start fresh) (fun n e u v _ he hu hv hinv hmove hP => ?_)
    (Nat.zero_le i) hi hs
  exact hP.next he hu hv hinv.2 hmove.deed

/-- A leader works under the address of its request's key. -/
theorem guard_key_after {i : Nat} (hi : i ≤ events.length)
    {s : System MemoryStore} (hs : s₀.after? events i = some s)
    {l : Leader} (hl : l ∈ s.leaders) :
    l.guard.key = Fingerprint.addressOf l.request.key := by
  obtain ⟨a, caller, -, q, key, -, -, hreq⟩ :=
    (origins_after fresh fits hi hs).leaders l hl
  rw [(invariants_after fresh fits hi hs).2.keyed l hl, hreq]
  rfl

/-- A call is started by a leader that waits for nothing and finds nothing
in the store; it waits for the call afterwards, which is on record. -/
theorem StartsCall.spec {i : Nat} {s : System MemoryStore} {l : Leader}
    (h : StartsCall s₀ events i s l) :
    l ∈ s.leaders ∧ l.waiting = none ∧ s.live? l.guard.key = none
      ∧ ∃ t, s₀.after? events (i + 1) = some t
        ∧ t.calls = s.calls ++ [l.request.outbound l.policy s.now]
        ∧ { l with
            waiting := some
              ⟨s.calls.length, s.elapsed + l.policy.originTimeout⟩ }
          ∈ t.leaders := by
  obtain ⟨hs, he, hfind, t, ht, hlonger⟩ := h
  have hl := List.mem_of_find?_eq_some hfind
  generalize hevent : Event.lead l.site l.guard.id = e at he
  have hmove := move_of_after fresh fits he hs ht
  cases hmove.deed with
  | called o st m leads idle look =>
      injection hevent with hsite hid
      rw [← hsite, ← hid, hfind] at leads
      cases leads
      have hmissing := Lacks.missing hmove.stored (congrArg Prod.fst look)
      refine ⟨hl, idle, hmissing, _, ht, rfl, ?_⟩
      exact List.mem_map.mpr ⟨l, hl, if_pos (by simp)⟩
  | ended e o how st m close =>
      exact absurd hlonger (Nat.lt_irrefl _)
  | attempted | retried | refused | passed | passerAnswered | passerLate
  | settled | exhausted | left | elapsed | advanced | policySet | swept =>
      cases hevent

/-- Calls stay on record. -/
theorem calls_after {i j : Nat} (hij : i ≤ j) (hj : j ≤ events.length)
    {s t : System MemoryStore} (hs : s₀.after? events i = some s)
    (ht : s₀.after? events j = some t) : s.calls <+: t.calls := by
  refine move_induction fresh fits (P := fun _ t => s.calls <+: t.calls) hs
    List.prefix_rfl (fun n e u v _ _ _ _ _ hmove hP => ?_) hij hj ht
  exact hP.trans hmove.deed.calls

/-- The call that a leader waits for is on record. -/
theorem call_on_record {i : Nat} (hi : i ≤ events.length)
    {s : System MemoryStore} (hs : s₀.after? events i = some s) {l : Leader}
    (hl : l ∈ s.leaders) {c : OpenCall} (hc : l.waiting = some c) :
    ∃ sent, s.calls[c.call]? = some (l.request.outbound l.policy sent) := by
  obtain ⟨m, u, hmi, hstarts, rfl⟩ :=
    (origins_after fresh fits hi hs).calls l hl c hc
  obtain ⟨-, -, -, t, ht, hcalls, -⟩ := hstarts.spec fresh fits
  obtain ⟨rest, hrest⟩ := calls_after fresh fits hmi hi ht hs
  refine ⟨u.now, ?_⟩
  rw [← hrest, hcalls, List.append_assoc]
  simp

omit fresh fits in
/-- Every call that a run puts on record is that of a request without key
that arrives, or is started by a leader. -/
theorem keyless_or_started {i : Nat} {s : System MemoryStore}
    (hs : s₀.after? events i = some s) {n : CallId} {o : Origin.Outbound}
    (later : s₀.calls.length ≤ n) (ho : s.calls[n]? = some o) :
    ∃ m u, m < i ∧ s₀.after? events m = some u ∧ u.calls.length = n
      ∧ ((∃ site caller q p, events[m]? = some (.arrive site caller q)
          ∧ q.key = none ∧ u.policy? site = some p
          ∧ o = q.outbound p u.now)
        ∨ ∃ l, StartsCall s₀ events m u l
          ∧ o = l.request.outbound l.policy u.now) := by
  obtain ⟨past, e, rest, v, w, hsplit, hv, hstep, hn, hcalls⟩ :=
    madeIn_run hs later ho
  -- the event is one of the first `i`, at the place where its past ends
  have hlt : past.length < i := by
    have hlen := congrArg List.length hsplit
    simp only [List.length_take, List.length_append, List.length_cons] at hlen
    omega
  have hpast : events.take past.length = past := by
    have htake := congrArg (List.take past.length) hsplit
    rwa [List.take_take, Nat.min_eq_left (Nat.le_of_lt hlt),
      List.take_left] at htake
  have he : events[past.length]? = some e := by
    rw [← List.getElem?_take_of_lt hlt, hsplit]
    simp
  have hu : s₀.after? events past.length = some v := by
    unfold after?
    rw [hpast]
    exact hv
  refine ⟨past.length, v, hlt, hu, hn, ?_⟩
  rcases (step_deed hstep).made hcalls with
    ⟨site, caller, q, j, rfl, there, hkey, hsent⟩
    | ⟨l, leads, -, rfl, hsent⟩
  · exact .inl ⟨site, caller, q, j.policy, he,
      Incoming.key_eq_none_of_ofRequest hkey, policy?_of_instance there,
      hsent⟩
  · refine .inr ⟨l, ⟨hu, he, leads, w, after_step he hu hstep, ?_⟩, hsent⟩
    rw [hcalls, List.length_append]
    exact Nat.lt_succ_self _

omit fresh fits in
/-- A call that a leader's first run has put on record was started by it. -/
theorem exists_startsCall (s₀ : System MemoryStore) (events : List Event)
    (i site : Nat) (id : FlightId) (key : IdempotencyKey) (n : Nat)
    (he : events[i]? = some (.lead site id))
    (hleads : (s₀.after? events i).bind (fun s =>
      (s.findLeader site id).map fun l => (l.request.key, s.calls.length))
        = some (key, n))
    (hcalls : (s₀.after? events (i + 1)).map (·.calls.length)
      = some (n + 1)) :
    ∃ s l, StartsCall s₀ events i s l ∧ l.site = site
      ∧ l.request.key = key ∧ s.calls.length = n := by
  obtain ⟨s, hs, hled⟩ := Option.bind_eq_some_iff.mp hleads
  obtain ⟨l, hl, hpair⟩ := Option.map_eq_some_iff.mp hled
  obtain ⟨t, ht, hlen⟩ := Option.map_eq_some_iff.mp hcalls
  obtain ⟨hsite, hid⟩ := findLeader_spec hl
  subst hsite hid
  cases hpair
  refine ⟨s, l, ⟨hs, he, hl, t, ht, ?_⟩, rfl, rfl, rfl⟩
  rw [hlen]
  exact Nat.lt_succ_self _

end Runs

end System

-- ============================================================== a request

namespace Sample

/-- A policy like any other. -/
def policy : Policy := .default (.ofKey ⟨1, by decide, by decide⟩)

/-- A request that may be sent twice. -/
def order : Incoming where
  method := ⟨"POST", by decide⟩
  path := "/orders"
  headers := .empty
  key := some "first-order"
  body := [1, 2, 3]

/-- Its key. -/
def orderKey : IdempotencyKey := ⟨"first-order", by decide⟩

/-- What the origin answers to it. -/
def created : Http.Response where
  status := ⟨201, by decide, by decide⟩
  headers := .empty
  body := [4, 5, 6]

/-- The request comes in, is called for and answered, and its result is
stored. -/
def stored : List Event :=
  [.arrive 0 0 order, .lead 0 0, .answer 0 (.ok created)]

end Sample

end OnceProxy.Proxy
