/-
What an event does to a system over the in-memory store.

A deed (`Proofs/Proxy/Steps`) says what a step does in terms of what its
store answers. A store of entries answers by what is live in it, and that is
all that has to be added: `LookedUp` says what a look-up comes to, `Ending`
how a flight ends. `Move` is a step from a store of entries; everything that
holds of every deed holds of it, and the two relations say the rest.
-/
import OnceProxy.Proofs.Proxy.Parties
import OnceProxy.Proofs.Store.Changes

namespace OnceProxy.Proxy

open Http Origin Store

namespace System

-- ============================================================== readings

/-- The live entry of a key at this instant. -/
def live? (s : System MemoryStore) (key : EntryKey) : Option Entry :=
  s.store.live? s.now key

-- ============================================================== look-ups

/-- What the look-up of a request comes to: the reply, if it has one, and
the store afterwards. -/
inductive LookedUp (store : MemoryStore) (now : UInt64) (r : Prepared)
    (policy : Policy) :
    Option (Except ProxyError Replay) → MemoryStore → Prop where
  /-- The store has nothing. -/
  | missed (missing : store.live? now r.fingerprint.entryKey = none) :
      LookedUp store now r policy none store
  /-- It has the result of the request's own operation. -/
  | hit (e : Entry) (found : store.live? now r.fingerprint.entryKey = some e)
      (own : e.answers r.fingerprint = true) :
      LookedUp store now r policy (some (.ok (.ofEntry e true)))
        (if policy.refreshOnReplay
          then store.extend now r.fingerprint.entryKey policy.entryTtl
          else store)
  /-- It has the result of another operation. -/
  | conflict (e : Entry)
      (found : store.live? now r.fingerprint.entryKey = some e)
      (foreign : e.answers r.fingerprint = false) :
      LookedUp store now r policy (some (.error .conflict)) store

/-- A look-up without a reply has found nothing. -/
theorem LookedUp.missing {store st : MemoryStore} {now : UInt64}
    {r : Prepared} {policy : Policy}
    (h : LookedUp store now r policy none st) :
    store.live? now r.fingerprint.entryKey = none := by
  cases h with
  | missed missing => exact missing

-- =============================================================== endings

/-- How an event ends the flight of a leader, and the store afterwards. -/
inductive Ending (s : System MemoryStore) :
    Event → Leader → FlightEnd Outcome → MemoryStore → Prop where
  /-- The second look finds an entry. -/
  | found (l : Leader) (e : Entry)
      (leads : s.findLeader l.site l.guard.id = some l)
      (idle : l.waiting = none)
      (there : s.live? l.guard.key = some e) :
      Ending s (.lead l.site l.guard.id) l (.completed (.ok ⟨e, false⟩))
        s.store
  /-- The origin gives no response. -/
  | unanswered (l : Leader) (c : OpenCall) (e : OriginError)
      (leads : s.leaderOf c.call = some l) (waits : l.waiting = some c)
      (inTime : s.elapsed ≤ c.deadline) :
      Ending s (.answer c.call (.error e)) l
        (.completed (.error (.originUnavailable (.origin e)))) s.store
  /-- The response is not final. -/
  | unfinal (l : Leader) (c : OpenCall) (response : Response)
      (e : ProxyError) (leads : s.leaderOf c.call = some l)
      (waits : l.waiting = some c) (inTime : s.elapsed ≤ c.deadline)
      (refused : classify response.status l.policy = .error e) :
      Ending s (.answer c.call (.ok response)) l (.completed (.error e))
        s.store
  /-- The response is final and stored. -/
  | stored (l : Leader) (c : OpenCall) (response : Response)
      (leads : s.leaderOf c.call = some l) (waits : l.waiting = some c)
      (inTime : s.elapsed ≤ c.deadline)
      (final : l.policy.isDefinitive response.status = true)
      (free : s.live? l.guard.key = none) :
      Ending s (.answer c.call (.ok response)) l
        (.completed (.ok
          ⟨l.request.entryFor l.policy response s.now, true⟩))
        (s.store.writeEntry l.guard.key
          (l.request.entryFor l.policy response s.now))
  /-- The response is final, but another entry was first. -/
  | held (l : Leader) (c : OpenCall) (response : Response) (e : Entry)
      (leads : s.leaderOf c.call = some l) (waits : l.waiting = some c)
      (inTime : s.elapsed ≤ c.deadline)
      (final : l.policy.isDefinitive response.status = true)
      (there : s.live? l.guard.key = some e) :
      Ending s (.answer c.call (.ok response)) l
        (.completed (.ok ⟨e, false⟩)) s.store
  /-- The call took too long. -/
  | late (l : Leader) (c : OpenCall)
      (leads : s.leaderOf c.call = some l) (waits : l.waiting = some c)
      (overdue : c.deadline ≤ s.elapsed) :
      Ending s (.timeout c.call) l
        (.completed (.error (timeoutError l.policy))) s.store
  /-- The leader dies. -/
  | died (l : Leader) (leads : s.findLeader l.site l.guard.id = some l) :
      Ending s (.crash l.site l.guard.id) l .aborted s.store

/-- Whoever ends a flight leads it. -/
theorem Ending.mem_leaders {s : System MemoryStore} {e : Event} {l : Leader}
    {how : FlightEnd Outcome} {store : MemoryStore}
    (h : Ending s e l how store) : l ∈ s.leaders := by
  cases h with
  | found _ _ leads | unanswered _ _ _ leads | unfinal _ _ _ _ leads
  | stored _ _ _ leads | held _ _ _ _ leads | late _ _ leads
  | died _ leads => exact List.mem_of_find?_eq_some leads

-- ============================================ conversations with a store

section Conversations

variable {s : System MemoryStore} (h : s.store.WellStored)

include h

/-- Reading leaves the system as it is. -/
theorem converse_get (key : EntryKey) :
    s.converse MemoryStore.backend (Cache.get key)
      = (.ok (s.live? key), s) := by
  unfold converse
  rw [Cache.run_get h]
  rfl

theorem converse_refresh (key : EntryKey) (duration : Nat) :
    (s.converse MemoryStore.backend (Cache.refresh key duration)).2
      = { s with store := s.store.extend s.now key duration } := by
  unfold converse
  rw [Cache.run_refresh h]

theorem converse_put (key : EntryKey) (e : Entry) :
    s.converse MemoryStore.backend (Cache.putIfAbsent key e)
      = (.ok (match s.live? key with
          | none => .stored e
          | some f => .held f),
        { s with
          store := s.store.insert s.now key e
          metrics := s.metrics.setEntries
            (s.store.insert s.now key e).size }) := by
  unfold converse
  rw [Cache.run_putIfAbsent h]
  rfl

end Conversations

-- ================================================= answers of the store

section Answers

variable {s t : System MemoryStore} (h : s.store.WellStored)

include h

/-- A look-up that finds nothing. -/
theorem lookup_of_none {r : Prepared}
    (hnone : s.live? r.fingerprint.entryKey = none) (policy : Policy) :
    s.lookup MemoryStore.backend r policy
      = (none, s.bump (.lookups .miss)) := by
  unfold lookup
  rw [converse_get h, hnone]

/-- A look-up that finds the entry of another operation. -/
theorem lookup_of_foreign {r : Prepared} {e : Entry}
    (hsome : s.live? r.fingerprint.entryKey = some e)
    (hforeign : e.answers r.fingerprint = false) (policy : Policy) :
    s.lookup MemoryStore.backend r policy
      = (some (.error .conflict), s.bump (.lookups .conflict)) := by
  unfold lookup
  rw [converse_get h, hsome]
  simp [hforeign]

/-- A look-up that finds the entry of the operation. -/
theorem lookup_of_own {r : Prepared} {e : Entry}
    (hsome : s.live? r.fingerprint.entryKey = some e)
    (hown : e.answers r.fingerprint = true) (policy : Policy) :
    s.lookup MemoryStore.backend r policy
      = (some (.ok (.ofEntry e true)),
        { s.bump (.lookups .hit) with
          store := if policy.refreshOnReplay
            then s.store.extend s.now r.fingerprint.entryKey policy.entryTtl
            else s.store }) := by
  unfold lookup
  rw [converse_get h, hsome]
  simp only [hown, if_true]
  cases policy.refreshOnReplay with
  | false => rfl
  | true =>
      have hb : (s.bump (.lookups .hit)).store.WellStored := h
      simp only [if_true, converse_refresh hb]
      rfl

/-- A look-up comes to what is live under its key. -/
theorem lookup_lookedUp (r : Prepared) (policy : Policy) :
    LookedUp s.store s.now r policy
      (s.lookup MemoryStore.backend r policy).1
      (s.lookup MemoryStore.backend r policy).2.store := by
  cases he : s.live? r.fingerprint.entryKey with
  | none =>
      rw [lookup_of_none h he]
      exact .missed he
  | some e =>
      cases hown : e.answers r.fingerprint with
      | true =>
          rw [lookup_of_own h he hown]
          exact .hit e he hown
      | false =>
          rw [lookup_of_foreign h he hown]
          exact .conflict e he hown

/-- An attempt gives the reply that its look-up comes to, if any, and
leaves the store that the look-up leaves. -/
theorem Try.lookedUp {caller : CallerId} {site : Nat} {r : Prepared}
    {policy : Policy} {joined : Nat}
    (ht : Try MemoryStore.backend s caller site r policy joined t) :
    ∃ x, LookedUp s.store s.now r policy x t.store
      ∧ t.replies = s.replies ++ (x.map (caller, ·)).toList := by
  have hlook := lookup_lookedUp h r policy
  cases ht with
  | answered x st m found =>
      rw [found] at hlook
      exact ⟨some x, hlook, rfl⟩
  | followed id st m m' missed taken =>
      rw [missed] at hlook
      exact ⟨none, hlook, (List.append_nil _).symm⟩
  | led u st m m' missed there free =>
      rw [missed] at hlook
      exact ⟨none, hlook, (List.append_nil _).symm⟩

/-- Where the store says that it has no entry, none is live. -/
theorem Lacks.missing {key : EntryKey}
    (hl : s.Lacks MemoryStore.backend key) : s.live? key = none := by
  unfold Lacks at hl
  rw [converse_get h] at hl
  exact Except.ok.inj hl

omit h in
/-- Only a final status is taken for one. -/
theorem isDefinitive_of_classify {status : Status} {policy : Policy}
    {u : Unit} (hok : classify status policy = .ok u) :
    policy.isDefinitive status = true := by
  unfold classify at hok
  split at hok
  · assumption
  · split at hok <;> cases hok

/-- What a leader makes of the origin's reply ends its flight. -/
theorem resolve_ending {l : Leader} {c : OpenCall} {answer : Reply}
    {outcome : Outcome} {st : MemoryStore} {m : Metrics}
    (leads : s.leaderOf c.call = some l) (waits : l.waiting = some c)
    (inTime : s.elapsed ≤ c.deadline)
    (result : s.resolve MemoryStore.backend l answer
      = (outcome, { s with store := st, metrics := m })) :
    Ending s (.answer c.call answer) l (.completed outcome) st := by
  cases answer with
  | error e =>
      cases result
      exact .unanswered l c e leads waits inTime
  | ok response =>
      unfold resolve at result
      cases hf : classify response.status l.policy with
      | error e =>
          simp only [hf] at result
          cases result
          exact .unfinal l c response e leads waits inTime hf
      | ok u =>
          have hfinal := isDefinitive_of_classify hf
          have hb : (s.bump (.originCalls
              (.status response.status.code))).store.WellStored := h
          simp only [hf, converse_put hb] at result
          have hlive : (s.bump (.originCalls
              (.status response.status.code))).live? l.guard.key
              = s.live? l.guard.key := rfl
          rw [hlive] at result
          cases he : s.live? l.guard.key with
          | none =>
              rw [he] at result
              obtain ⟨rfl, hu⟩ := Prod.mk.inj result
              have hins : s.store.insert s.now l.guard.key
                  (l.request.entryFor l.policy response s.now) = st :=
                congrArg System.store hu
              unfold MemoryStore.insert at hins
              rw [show s.store.live? s.now l.guard.key = none from he]
                at hins
              rw [← hins]
              exact .stored l c response leads waits inTime hfinal he
          | some e =>
              rw [he] at result
              obtain ⟨rfl, hu⟩ := Prod.mk.inj result
              have hins : s.store.insert s.now l.guard.key
                  (l.request.entryFor l.policy response s.now) = st :=
                congrArg System.store hu
              unfold MemoryStore.insert at hins
              rw [show s.store.live? s.now l.guard.key = some e from he]
                at hins
              rw [← hins]
              exact .held l c response e leads waits inTime hfinal he

/-- Over the in-memory store, reading does not fail. -/
theorem Close.ending {e : Event} {l : Leader} {how : FlightEnd Outcome}
    {st : MemoryStore} {m : Metrics}
    (hc : Close MemoryStore.backend s e l how st m) :
    Ending s e l how st := by
  cases hc with
  | failed l e st m leads idle look =>
      rw [converse_get h] at look
      cases look
  | found l e st m leads idle look =>
      rw [converse_get h] at look
      obtain ⟨hlive, hu⟩ := Prod.mk.inj look
      obtain rfl : s.store = st := congrArg System.store hu
      exact .found l e leads idle (Except.ok.inj hlive)
  | answered l c answer outcome st m leads waits inTime result =>
      exact resolve_ending h leads waits inTime result
  | late l c leads waits overdue => exact .late l c leads waits overdue
  | died l leads => exact .died l leads

end Answers

-- ================================================================= moves

/-- A step from a store of entries. -/
structure Move (s : System MemoryStore) (e : Event) (t : System MemoryStore) :
    Prop where
  stored : s.store.WellStored
  happens : s.step MemoryStore.backend e = some t

section Moves

variable {s t : System MemoryStore} {e : Event}

theorem Move.deed (h : Move s e t) : Deed MemoryStore.backend s e t :=
  step_deed h.happens

/-- What an event looks up, it attempts. -/
theorem Move.lookedUp (h : Move s e t) {site : Nat} {caller : CallerId}
    {r : Prepared} (hr : s.attempt? e = some (site, caller, r)) :
    ∃ policy x, LookedUp s.store s.now r policy x t.store
      ∧ t.replies = s.replies ++ (x.map (caller, ·)).toList := by
  obtain ⟨policy, joined, b, -, hb, -, attempt⟩ := step_attempt hr h.happens
  rcases hb with rfl | rfl
  · exact ⟨policy, attempt.lookedUp h.stored⟩
  · exact ⟨policy, attempt.lookedUp (s := s.dropWaiter caller) h.stored⟩

end Moves

end System

end OnceProxy.Proxy
