/-
A request whose key has a live entry.

It is replied to at once, by the look-up that it makes when it arrives: with
the entry if that is the result of its own operation, and else with a
conflict. Nobody joins a flight and nothing is called (`AtOnce`); this is so
over any store that reports such an entry, whatever becomes of the refresh
(`attempt_found`).

In the in-memory store a conflict changes nothing, and a repetition at most
moves the expiry of the one entry, and that only where the policy asks for it
(`Touched`).
-/
import OnceProxy.Proofs.Proxy.Lineage
import OnceProxy.Proofs.Proxy.Origins

namespace OnceProxy.Proxy.System

open Store MemoryStore

variable {σ : Type} {B : Backend σ}

-- ================================================================ at once

/-- A caller has been replied to without any work: but for the reply, the
store and what is counted, everything is as it was. -/
structure AtOnce (s t : System σ) (caller : CallerId)
    (x : Except ProxyError Replay) : Prop where
  replies : t.replies = s.replies ++ [(caller, x)]
  instances : t.instances = s.instances
  leaders : t.leaders = s.leaders
  waiters : t.waiters = s.waiters
  passers : t.passers = s.passers
  calls : t.calls = s.calls
  clocks : t.wall = s.wall ∧ t.elapsed = s.elapsed

/-- An arriving request with a key makes its first attempt. -/
theorem step_arrive {s : System σ} {site : Nat} {i : Instance}
    (there : s.instances[site]? = some i) {q : Incoming}
    {key : IdempotencyKey} (keyed : q.HasKey key) (caller : CallerId) :
    s.step B (.arrive site caller q)
      = some (s.attempt B caller site (q.prepare key) i.policy 0) := by
  show s.arrive B site caller q = _
  unfold arrive
  rw [there]
  simp only [Option.bind_eq_bind, Option.bind_some, keyed.ofRequest]
  rfl

/-- The reply that a look-up makes of the entry that it finds. -/
def recalled (e : Entry) (fp : Fingerprint) : Except ProxyError Replay :=
  if e.fingerprint = fp.id then
    .ok {
      status := e.statusCode
      headers := e.headerMap
      body := e.body
      replayed := true }
  else .error .conflict

theorem recalled_of_own {e : Entry} {fp : Fingerprint}
    (own : e.fingerprint = fp.id) : recalled e fp = .ok (.ofEntry e true) := by
  unfold recalled
  rw [if_pos own]
  rfl

/-- The reply that a look-up makes of what it reads; none where there is no
live entry. -/
def replyTo (found : Except StoreError (Option Entry)) (fp : Fingerprint) :
    Option (Except ProxyError Replay) :=
  match found with
  | .error e => some (.error (.storeUnavailable (.store e)))
  | .ok none => none
  | .ok (some e) => some (recalled e fp)

/-- The reply of a look-up rests on what it reads alone, whatever the refresh
comes to. -/
theorem lookup_reply (s : System σ) (r : Prepared) (policy : Policy) :
    (s.lookup B r policy).1
      = replyTo (s.converse B (Cache.get r.fingerprint.entryKey)).1
        r.fingerprint := by
  unfold lookup
  generalize s.converse B (Cache.get r.fingerprint.entryKey) = reading
  obtain ⟨found, u⟩ := reading
  cases found with
  | error e => rfl
  | ok found =>
      cases found with
      | none => rfl
      | some e =>
          unfold replyTo recalled
          by_cases hown : e.fingerprint = r.fingerprint.id
          · simp [Entry.answers, hown, Replay.ofEntry]
          · simp [Entry.answers, hown]

/-- An attempt whose look-up finds an entry is over at once. -/
theorem attempt_found {s : System σ} {r : Prepared} {e : Entry}
    (found : (s.converse B (Cache.get r.fingerprint.entryKey)).1
      = .ok (some e)) (caller : CallerId) (site : Nat) (policy : Policy)
    (joined : Nat) :
    AtOnce s (s.attempt B caller site r policy joined) caller
      (recalled e r.fingerprint) := by
  have hreply := lookup_reply (B := B) s r policy
  rw [found] at hreply
  obtain ⟨st, m, hbeside⟩ := beside_lookup (B := B) (s := s) r policy
  unfold attempt
  generalize s.lookup B r policy = looked at hreply hbeside
  obtain ⟨answer, u⟩ := looked
  obtain rfl : answer = some (recalled e r.fingerprint) := hreply
  obtain rfl : u = { s with store := st, metrics := m } := hbeside
  exact ⟨rfl, rfl, rfl, rfl, rfl, rfl, rfl, rfl⟩

/-- The in-memory store reports a live entry. -/
theorem found_of_live {s : System MemoryStore} (h : s.store.WellStored)
    {key : EntryKey} {e : Entry} (live : s.live? key = some e) :
    (s.converse MemoryStore.backend (Cache.get key)).1 = .ok (some e) := by
  rw [converse_get h]
  exact congrArg Except.ok live

-- ================================================================ touched

/-- The live entry of a key may have been given a later expiry, under a new
version; nothing else is another. -/
def Touched (s t : MemoryStore) (key : EntryKey) (e : Entry) : Prop :=
  t = s ∨ ∃ expiry, e.expiresAt < expiry ∧ ∀ k, t.find? k
    = if k = key then
        some ⟨(e.withExpiry expiry).encode, s.lastVersion + 1, expiry⟩
      else s.find? k

theorem touched_extend {s : MemoryStore} {now : UInt64} {key : EntryKey}
    {e : Entry} (live : s.live? now key = some e) (duration : Nat) :
    Touched s (s.extend now key duration) key e := by
  rcases s.extend_cases now key duration with
    hidle | ⟨f, expiry, hf, hlater, hwrite⟩
  · exact .inl hidle
  · obtain rfl : e = f := Option.some.inj (live.symm.trans hf)
    refine .inr ⟨expiry, hlater, fun k => ?_⟩
    rw [hwrite]
    exact find?_write s key k _ expiry

/-- The store after an attempt whose key has a live entry. -/
theorem store_attempt_live {s : System MemoryStore} (h : s.store.WellStored)
    {r : Prepared} {e : Entry}
    (live : s.live? r.fingerprint.entryKey = some e) (caller : CallerId)
    (site : Nat) (policy : Policy) (joined : Nat) :
    (s.attempt MemoryStore.backend caller site r policy joined).store
      = if e.fingerprint = r.fingerprint.id ∧ policy.refreshOnReplay then
          s.store.extend s.now r.fingerprint.entryKey policy.entryTtl
        else s.store := by
  unfold attempt
  by_cases hown : e.fingerprint = r.fingerprint.id
  · rw [lookup_of_own h live (decide_eq_true hown)]
    simp [hown, reply]
  · rw [lookup_of_foreign h live (decide_eq_false hown)]
    simp [hown, reply, bump]

-- ============================================================ the theorem

/-- A policy under which repetitions extend the life of a result. -/
def Sample.refreshing : Policy :=
  { Sample.policy with refreshOnReplay := true }

/-- A result is a second old. -/
def recent : List Event := Sample.stored ++ [.advance 1000]

theorem fits_recent : ∀ e ∈ recent, e.Fits := by decide +kernel

end OnceProxy.Proxy.System
