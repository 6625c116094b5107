/-
The entries behind the results that callers are given.

A flight ends with an entry in two ways: its leader finds one in the store,
or the leader's own call produces one (`Produced`). A caller with a key is
given an entry that it finds in the store itself, or the one with which its
flight ended while it was waiting (`Source`). Both are traced here to
the instants of a run, so that what is known of the store then can be
brought to bear on the reply.
-/
import OnceProxy.Proofs.Proxy.Grants
import OnceProxy.Proofs.Proxy.Origins

namespace OnceProxy.Proxy.System

open Http Store MemoryStore

-- =============================================================== replies

/-- The event at an instant gives a caller this reply. -/
def RepliesAt (s₀ : System MemoryStore) (events : List Event) (n : Nat)
    (caller : CallerId) (x : Except ProxyError Replay) : Prop :=
  ∃ s t, s₀.after? events n = some s ∧ s₀.after? events (n + 1) = some t
    ∧ n < events.length ∧ t.replies = s.replies ++ [(caller, x)]

/-- The event at an instant is the arrival of a caller's request, which
carries this key and is the caller's only one. -/
structure Asks (events : List Event) (a : Nat) (caller : CallerId)
    (q : Incoming) (key : IdempotencyKey) : Prop where
  arrives : ∃ site, events[a]? = some (.arrive site caller q)
  keyed : q.HasKey key
  only : ∀ b site r, events[b]? = some (.arrive site caller r) → b = a

/-- The event at an instant answers a leader's call in time with a final
response, and this entry is stored for it, where none of its key is
live. -/
def Produced (s₀ : System MemoryStore) (events : List Event) (n : Nat)
    (l : Leader) (response : Response) (entry : Entry) : Prop :=
  ∃ c u v, events[n]? = some (.answer c.call (.ok response))
    ∧ s₀.after? events n = some u ∧ s₀.after? events (n + 1) = some v
    ∧ u.leaderOf c.call = some l ∧ l.waiting = some c
    ∧ u.elapsed ≤ c.deadline
    ∧ l.policy.isDefinitive response.status = true
    ∧ u.live? l.guard.key = none
    ∧ entry = l.request.entryFor l.policy response u.now
    ∧ v.store = u.store.writeEntry l.guard.key entry

/-- How a caller with a key comes to its result. -/
inductive Source (s₀ : System MemoryStore) (events : List Event)
    (a n : Nat) (caller : CallerId) (r : Prepared) : Replay → Prop where
  /-- It finds the entry in the store. -/
  | found (s : System MemoryStore) (entry : Entry)
      (here : s₀.after? events n = some s)
      (live : s.live? r.fingerprint.entryKey = some entry)
      (own : entry.answers r.fingerprint = true) :
      Source s₀ events a n caller r (.ofEntry entry true)
  /-- The flight it waits for has ended with the entry since it arrived. -/
  | flown (k : Nat) (l : Leader) (result : Resolution)
      (s : System MemoryStore) (w : Waiter) (since : a ≤ k) (before : k < n)
      (here : s₀.after? events n = some s)
      (waits : s.waiters.find? (·.caller = caller) = some w)
      (site : l.site = w.site) (flight : l.guard.id = w.flight)
      (key : l.guard.key = r.fingerprint.entryKey)
      (ended : EndedAt s₀ events k l (.completed (.ok result)))
      (own : result.entry.answers r.fingerprint = true) :
      Source s₀ events a n caller r
        (.ofEntry result.entry (!result.fresh))

section Runs

variable {s₀ : System MemoryStore} {events : List Event}

/-- A flight that ends with an entry has met it, or its leader's own call
has produced it. -/
theorem EndedAt.result {n : Nat} {l : Leader} {result : Resolution}
    (h : EndedAt s₀ events n l (.completed (.ok result))) :
    (result.fresh = false ∧ ∃ u, s₀.after? events n = some u
      ∧ u.live? l.guard.key = some result.entry)
    ∨ (result.fresh = true
      ∧ ∃ response, Produced s₀ events n l response result.entry) := by
  obtain ⟨e, u, v, he, hu, hv, hending, -⟩ := h
  generalize hhow : FlightEnd.completed (Except.ok result) = how at hending
  generalize hstore : v.store = store at hending
  cases hending with
  | found l entry leads idle there =>
      cases hhow
      exact .inl ⟨rfl, u, hu, there⟩
  | stored l c response leads waits inTime final free =>
      cases hhow
      exact .inr ⟨rfl, response, c, u, v, he, hu, hv, leads, waits, inTime,
        final, free, rfl, hstore⟩
  | held l c response entry leads waits inTime final there =>
      cases hhow
      exact .inl ⟨rfl, u, hu, there⟩
  | unanswered | unfinal | late | died => cases hhow

/-- What is held when a call has produced an entry: the entry, and under
other keys what was held before. -/
theorem Produced.held?_after (fits : ∀ e ∈ events, e.Fits) {n : Nat}
    {l : Leader} {response : Response} {entry : Entry}
    (h : Produced s₀ events n l response entry) {u v : System MemoryStore}
    (hu : s₀.after? events n = some u)
    (hv : s₀.after? events (n + 1) = some v) (key : EntryKey) :
    v.store.held? key
      = if key = l.guard.key then some entry else u.store.held? key := by
  obtain ⟨c, u', v', he, hu', hv', -, -, -, -, -, hentry, hstore⟩ := h
  rw [hu'] at hu
  cases hu
  rw [hv'] at hv
  cases hv
  have hfits : entry.Fits := by
    rw [hentry]
    exact fits_entryFor (fits _ (List.mem_of_getElem? he)) ..
  rw [hstore, held?_writeEntry hfits]

variable (fresh : s₀.Fresh) (fits : ∀ e ∈ events, e.Fits)

include fresh fits

/-- How an event changes the store: what has expired is dropped, a request
moves the expiry of its own result, or a call produces an entry. -/
theorem store_after {n : Nat} {e : Event} (he : events[n]? = some e)
    {s t : System MemoryStore} (hs : s₀.after? events n = some s)
    (ht : s₀.after? events (n + 1) = some t) :
    t.store = s.store
    ∨ (e = .sweep ∧ t.store = s.store.purge s.now)
    ∨ (∃ site caller r found expiry,
        s.attempt? e = some (site, caller, r)
        ∧ s.live? r.fingerprint.entryKey = some found
        ∧ found.answers r.fingerprint = true ∧ found.expiresAt < expiry
        ∧ t.store = s.store.writeEntry r.fingerprint.entryKey
          (found.withExpiry expiry))
    ∨ ∃ l response entry, Produced s₀ events n l response entry := by
  have hwriting := (move_of_after fresh fits he hs ht).writing
  generalize hstore : t.store = after at hwriting
  cases hwriting with
  | none => exact .inl rfl
  | swept event => exact .inr (.inl ⟨event, rfl⟩)
  | refreshed site caller r found duration attempts live own =>
      rcases s.store.extend_cases s.now r.fingerprint.entryKey duration with
        hidle | ⟨old, expiry, hold, hlater, hwrite⟩
      · exact .inl hidle
      · have hfound : found = old := Option.some.inj (live.symm.trans hold)
        subst hfound
        exact .inr (.inr (.inl ⟨site, caller, r, found, expiry, attempts,
          live, own, hlater, hwrite⟩))
  | inserted l c response event leads waits inTime final free =>
      subst event
      exact .inr (.inr (.inr ⟨l, response, _, c, s, t, he, hs, ht, leads,
        waits, inTime, final, free, rfl, hstore⟩))

/-- Every reply on record was given at some instant. -/
theorem repliesAt_of_mem {i : Nat} (hi : i ≤ events.length)
    {s : System MemoryStore} (hs : s₀.after? events i = some s)
    {caller : CallerId} {x : Except ProxyError Replay}
    (hx : (caller, x) ∈ s.replies) :
    ∃ n, n < i ∧ RepliesAt s₀ events n caller x := by
  refine move_induction fresh fits
    (P := fun i s => (caller, x) ∈ s.replies →
      ∃ n, n < i ∧ RepliesAt s₀ events n caller x) after?_zero
    (fun h => ?_) (fun n e u v _ he hu hv _ hmove hP h => ?_)
    (Nat.zero_le i) hi hs hx
  · rw [fresh.replies] at h
    cases h
  · have hn := (List.getElem?_eq_some_iff.mp he).1
    have hold : (caller, x) ∈ u.replies →
        ∃ m, m < n + 1 ∧ RepliesAt s₀ events m caller x := by
      intro h
      obtain ⟨m, hm, hrest⟩ := hP h
      exact ⟨m, Nat.lt_succ_of_lt hm, hrest⟩
    rcases hmove.deed.lastReply with hsame | ⟨c, y, hp, -⟩
    · rw [hsame] at h
      exact hold h
    · rw [hp] at h
      rcases List.mem_append.mp h with h' | h'
      · exact hold h'
      · cases List.mem_singleton.mp h'
        exact ⟨n, Nat.lt_succ_self n, u, v, hu, hv, hn, hp⟩

/-- A caller with a result on record was given one. -/
theorem exists_repliesAt (i : Nat) (hi : i ≤ events.length)
    (caller : CallerId)
    (h : (s₀.after? events i).any (fun s => s.replies.any fun p =>
      decide (p.1 = caller) && p.2.toBool) = true) :
    ∃ n x, RepliesAt s₀ events n caller (.ok x) := by
  obtain ⟨s, hs, hany⟩ := (Option.any_eq_true _ _).mp h
  obtain ⟨⟨who, reply⟩, hmem, hp⟩ := List.any_eq_true.mp hany
  rw [Bool.and_eq_true, decide_eq_true_eq] at hp
  obtain ⟨rfl, hok⟩ := hp
  cases reply with
  | error fault => cases hok
  | ok x =>
      obtain ⟨n, -, hreply⟩ := repliesAt_of_mem fresh fits hi hs hmem
      exact ⟨n, x, hreply⟩

/-- A result on record was given at some instant. -/
theorem repliesAt_of_record {i : Nat} (hi : i ≤ events.length)
    {caller : CallerId} {x : Replay}
    {record : List (CallerId × Option Replay)}
    (hrecord : (s₀.after? events i).map (fun s =>
      s.replies.map fun r => (r.1, r.2.toOption)) = some record)
    (hx : (caller, some x) ∈ record) :
    ∃ n, n < i ∧ RepliesAt s₀ events n caller (.ok x) := by
  obtain ⟨s, hs, rfl⟩ := Option.map_eq_some_iff.mp hrecord
  obtain ⟨⟨who, reply⟩, hmem, hpair⟩ := List.mem_map.mp hx
  obtain ⟨rfl, hreply⟩ := Prod.mk.inj hpair
  cases reply with
  | error fault => cases hreply
  | ok y =>
      cases hreply
      exact repliesAt_of_mem fresh fits hi hs hmem

/-- A flight ends once. -/
theorem EndedAt.outcome {n : Nat} {l : Leader} {how : FlightEnd Outcome}
    (h : EndedAt s₀ events n l how) {j : Nat} (hnj : n < j)
    (hj : j ≤ events.length) {t : System MemoryStore}
    (ht : s₀.after? events j = some t) :
    t.outcome? l.site l.guard.id = some how := by
  obtain ⟨e, u, v, -, -, hv, -, hend⟩ := h
  exact outcome?_after fresh fits hnj hj hv ht hend

/-- The flight that a caller waits for and that is over has ended since the
caller's request arrived. -/
theorem waiter_ended {n : Nat} (hn : n ≤ events.length)
    {s : System MemoryStore} (hs : s₀.after? events n = some s) {w : Waiter}
    (hw : w ∈ s.waiters) {how : FlightEnd Outcome}
    (isOver : s.outcome? w.site w.flight = some how) :
    ∃ a k l, a ≤ k ∧ k < n
      ∧ ArrivedAt events a w.site w.caller w.request
      ∧ l.site = w.site
      ∧ l.guard = ⟨w.request.fingerprint.entryKey, w.flight⟩
      ∧ EndedAt s₀ events k l how := by
  obtain ⟨a, m, u, ham, hmn, harrived, hu, hslot⟩ :=
    (origins_after fresh fits hn hs).waiters w hw
  -- the slot it joined is gone, so its leader has ended the flight
  rcases slot_or_ended_after fresh fits hmn hn hu hs hslot with
    hstill | ⟨k, l, end₁, hmk, hkn, hsite, hguard, hended⟩
  · rw [(invariants_after fresh fits hn hs).2.unended hstill] at isOver
    cases isOver
  · have hend := hended.outcome fresh fits hkn hn hs
    rw [hsite, hguard, isOver] at hend
    cases hend
    exact ⟨a, k, l, Nat.le_trans ham (Nat.le_of_succ_le hmk), hkn, harrived,
      hsite, hguard, hended⟩

/-- A result is given to a request with a key that has arrived, and comes
out of the store or out of its flight; or it is given to one without. -/
theorem source_of_reply {n : Nat} {caller : CallerId} {x : Replay}
    (h : RepliesAt s₀ events n caller (.ok x)) :
    (∃ a site r, ArrivedAt events a site caller r
      ∧ Source s₀ events a n caller r x ∧ a ≤ n)
    ∨ ∃ (a site : Nat) (q : Incoming),
      events[a]? = some (.arrive site caller q) ∧ q.key = none := by
  obtain ⟨s, t, hs, ht, hn, hreplies⟩ := h
  have he := List.getElem?_eq_getElem hn
  have horigins := origins_after fresh fits (Nat.le_of_lt hn) hs
  cases (move_of_after fresh fits he hs ht).grant hreplies with
  | hit site r found attempts live own =>
      obtain ⟨a, han, harrived⟩ := horigins.attempt he attempts
      exact .inl ⟨a, site, r, harrived, .found s found hs live own, han⟩
  | settled w result event waits isOver own =>
      have hcaller : w.caller = caller := by
        have hp := List.find?_some waits
        simpa using hp
      obtain ⟨a, k, l, hak, hkn, harrived, hsite, hguard, hended⟩ :=
        waiter_ended fresh fits (Nat.le_of_lt hn) hs
          (List.mem_of_find?_eq_some waits) isOver
      rw [hcaller] at harrived
      exact .inl ⟨a, w.site, w.request, harrived,
        .flown k l result s w hak hkn hs waits hsite
          (congrArg (·.id) hguard) (congrArg (·.key) hguard) hended own,
        Nat.le_of_lt (Nat.lt_of_le_of_lt hak hkn)⟩
  | passed p response event waits whose =>
      obtain ⟨a, site, q, -, harrives, hkey⟩ := horigins.passers p waits
      rw [whose] at harrives
      exact .inr ⟨a, site, q, harrives, hkey⟩

/-- The result of a caller whose only request carries a key. -/
theorem Asks.source {a n : Nat} {caller : CallerId} {q : Incoming}
    {key : IdempotencyKey} (hasks : Asks events a caller q key) {x : Replay}
    (h : RepliesAt s₀ events n caller (.ok x)) :
    Source s₀ events a n caller (q.prepare key) x ∧ a ≤ n := by
  obtain ⟨site, harrives⟩ := hasks.arrives
  obtain ⟨raw, hraw, hparse⟩ := hasks.keyed
  rcases source_of_reply fresh fits h with
    ⟨b, site', r, ⟨p, k, hb, ⟨raw', hraw', hparse'⟩, rfl⟩, hsource, hbn⟩
    | ⟨b, site', p, hb, hnone⟩
  · obtain rfl := hasks.only b site' p hb
    rw [harrives] at hb
    cases hb
    rw [hraw] at hraw'
    cases hraw'
    rw [hparse] at hparse'
    cases hparse'
    exact ⟨hsource, hbn⟩
  · obtain rfl := hasks.only b site' p hb
    rw [harrives] at hb
    cases hb
    rw [hraw] at hnone
    cases hnone

end Runs

-- =============================================================== an order

/-- A request is sent, called for, answered and replied to. -/
def placed : List Event := Sample.stored ++ [.wake 0]

theorem fits_placed : ∀ e ∈ placed, e.Fits := by decide +kernel

theorem asks_placed : Asks placed 0 0 Sample.order Sample.orderKey where
  arrives := ⟨0, rfl⟩
  keyed := ⟨"first-order", rfl, by decide +kernel⟩
  only := by
    intro b site r hb
    have hlt := (List.getElem?_eq_some_iff.mp hb).1
    match b, hlt with
    | 0, _ => rfl
    | 1, _ | 2, _ | 3, _ => cases hb

end OnceProxy.Proxy.System
