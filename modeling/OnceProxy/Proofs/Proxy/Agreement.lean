/-
Agreement: replies to one key are told apart by the life of an entry only.

Whichever way a caller with a key comes to its result, the entry behind it
was in the store under the key at an instant between the request's arrival
and the reply, and live then. While a key has a live entry it is one
result, so replies that go back to instants of one such stretch are equal
but for the mark of repetition. A reply without that mark goes to a caller
of the flight whose leader's call produced the entry.

Entries are live when they are stored because every policy gives them a
time to live. The clock's last reading is the one exception: an expiry
cannot lie after it, so what is stored then is held without being live.
-/
import OnceProxy.Proofs.Proxy.Policies
import OnceProxy.Proofs.Proxy.Results

namespace OnceProxy.Proxy.System

open Http Store MemoryStore

-- ============================================================== instants

/-- At this instant the store holds an entry of the key that gives this
reply. It is live then, but for the clock's last reading. -/
def ResolvedAt (s₀ : System MemoryStore) (events : List Event)
    (key : EntryKey) (x : Replay) (j : Nat) : Prop :=
  ∃ u e, s₀.after? events j = some u ∧ u.store.held? key = some e
    ∧ (u.now.toNat + 1 < 2 ^ 64 → u.live? key = some e)
    ∧ x = .ofEntry e x.replayed

/-- At this instant the caller waits for the flight of this leader. -/
def WaitsFor (s₀ : System MemoryStore) (events : List Event) (n : Nat)
    (caller : CallerId) (l : Leader) : Prop :=
  ∃ s w, s₀.after? events n = some s
    ∧ s.waiters.find? (·.caller = caller) = some w
    ∧ w.site = l.site ∧ w.flight = l.guard.id

/-- Entries of one result give one reply. -/
theorem ofEntry_of_sameResult {e f : Entry} (h : e.sameResult f = true)
    (replayed : Bool) : Replay.ofEntry e replayed = .ofEntry f replayed := by
  rw [Entry.sameResult_iff.mp h]
  rfl

/-- A time to live that is a number of 64 bits and not zero ends after the
instant it is counted from, unless that is the last. -/
theorem lt_addSaturating {now : UInt64} {ttl : Nat} (hpos : 0 < ttl)
    (hlt : ttl < 2 ^ 64) (hnow : now.toNat + 1 < 2 ^ 64) :
    now < addSaturating now (millis ttl) := by
  rw [UInt64.lt_iff_toNat_lt, toNat_addSaturating]
  have httl : (millis ttl).toNat = ttl := by
    unfold millis
    rw [UInt64.toNat_ofNat']
    exact Nat.mod_eq_of_lt hlt
  have hmax : maxUInt64 = 2 ^ 64 - 1 := rfl
  rw [httl, hmax]
  omega

section Runs

variable {s₀ : System MemoryStore} {events : List Event}

/-- An entry that a call has produced is held. -/
theorem Produced.held (fits : ∀ e ∈ events, e.Fits) {k : Nat} {l : Leader}
    {response : Response} {entry : Entry}
    (h : Produced s₀ events k l response entry) {v : System MemoryStore}
    (hv : s₀.after? events (k + 1) = some v) :
    v.store.held? l.guard.key = some entry := by
  obtain ⟨u, hu⟩ := exists_after (Nat.le_succ k) hv
  rw [h.held?_after fits hu hv]
  exact if_pos rfl

/-- A time to live that counts: not zero, and a number of 64 bits. -/
def Lasting (p : Policy) : Prop := 0 < p.entryTtl ∧ p.entryTtl < 2 ^ 64

/-- An entry that a call has produced is live under such a policy. -/
theorem Produced.live (fresh : s₀.Fresh) (fits : ∀ e ∈ events, e.Fits)
    {k : Nat} {l : Leader} {response : Response} {entry : Entry}
    (h : Produced s₀ events k l response entry) (hl : Lasting l.policy)
    {v : System MemoryStore} (hv : s₀.after? events (k + 1) = some v)
    (hnow : v.now.toNat + 1 < 2 ^ 64) : v.live? l.guard.key = some entry := by
  have hheld := h.held fits hv
  obtain ⟨c, u, v', he, hu, hv', -, -, -, -, -, hentry, -⟩ := h
  -- the answer takes no time
  have hwall := (move_of_after fresh fits he hu hv).wall
  have hsame : v.now = u.now := now_congr (hwall.trans (Int.add_zero _))
  refine live?_eq_some.mpr ⟨hheld, ?_⟩
  show v.now < entry.expiresAt
  rw [hentry, hsame]
  exact lt_addSaturating hl.1 hl.2 (hsame ▸ hnow)

/-- The instant at which the store decided a caller's result. -/
theorem Source.resolvedAt (fresh : s₀.Fresh) (fits : ∀ e ∈ events, e.Fits)
    (ruled : s₀.Ruled Lasting)
    (later : ∀ site p, Event.setPolicy site p ∈ events → Lasting p)
    {a n : Nat} (han : a ≤ n) (hn : n ≤ events.length) {caller : CallerId}
    {r : Prepared} {x : Replay} (h : Source s₀ events a n caller r x) :
    ∃ j, a ≤ j ∧ j ≤ n ∧ ResolvedAt s₀ events r.fingerprint.entryKey x j
      ∧ (x.replayed = false → ∃ k l response entry, j = k + 1
        ∧ Produced s₀ events k l response entry ∧ x = .ofEntry entry false
        ∧ WaitsFor s₀ events n caller l) := by
  cases h with
  | found s entry here live own =>
      refine ⟨n, han, Nat.le_refl n, ⟨s, entry, here,
        (live?_eq_some.mp live).1, fun _ => live, rfl⟩, fun hx => ?_⟩
      cases hx
  | flown k l result s w since before here waits site flight key ended own =>
      rcases ended.result with ⟨hfirst, u, hu, hlive⟩
        | ⟨hfirst, response, hproduced⟩
      · refine ⟨k, since, Nat.le_of_lt before, ⟨u, result.entry, hu, ?_,
          fun _ => ?_, rfl⟩, fun hx => ?_⟩
        · rw [← key]
          exact (live?_eq_some.mp hlive).1
        · rw [← key]
          exact hlive
        · rw [hfirst] at hx
          cases hx
      · obtain ⟨v, hv⟩ := exists_after before here
        have hl : Lasting l.policy := by
          obtain ⟨c, u, -, -, hu, -, hleads, -⟩ := hproduced
          exact (ruled_after fresh fits ruled later
            (Nat.le_trans (Nat.le_of_lt before) hn) hu).leaders l
              (List.mem_of_find?_eq_some hleads)
        refine ⟨k + 1, Nat.le_succ_of_le since, before, ⟨v, result.entry, hv,
          ?_, fun hnow => ?_, rfl⟩, fun _ => ?_⟩
        · rw [← key]
          exact hproduced.held fits hv
        · rw [← key]
          exact hproduced.live fresh fits hl hv hnow
        · refine ⟨k, l, response, result.entry, rfl, hproduced, ?_,
            s, w, here, waits, site.symm, flight.symm⟩
          rw [hfirst]
          rfl

/-- Replies that go back to one stretch of a key's life agree. -/
theorem ResolvedAt.agree (fresh : s₀.Fresh) (fits : ∀ e ∈ events, e.Fits)
    {key : EntryKey} {x y : Replay} {i j : Nat} (hij : i ≤ j)
    (hj : j ≤ events.length) (hx : ResolvedAt s₀ events key x i)
    (hy : ResolvedAt s₀ events key y j)
    (hlive : ∀ m u, i ≤ m → m ≤ j → s₀.after? events m = some u →
      u.live? key ≠ none) :
    x.status = y.status ∧ x.headers = y.headers ∧ x.body = y.body := by
  obtain ⟨s, e, hs, he, -, hxe⟩ := hx
  obtain ⟨t, f, ht, hf, -, hyf⟩ := hy
  -- what is held is what is live, since something is
  have hnow : ∀ {u : System MemoryStore} {g : Entry},
      u.store.held? key = some g → u.live? key ≠ none →
      u.live? key = some g := by
    intro u g hg hsome
    obtain ⟨o, ho⟩ := Option.ne_none_iff_exists'.mp hsome
    have hheld := (live?_eq_some.mp ho).1
    rw [hg] at hheld
    cases hheld
    exact ho
  have hsame := same_while_live fresh fits hij hj hlive hs ht
    (hnow he (hlive i s (Nat.le_refl i) hij hs))
    (hnow hf (hlive j t hij (Nat.le_refl j) ht))
  have hreply := ofEntry_of_sameResult hsame x.replayed
  rw [hxe, hyf, hreply]
  exact ⟨rfl, rfl, rfl⟩

end Runs

-- ============================================================ the theorem

/-- Any number of instances share a store that starts empty, under policies
whose entries last. Every result of a request with a key is what an entry
gives that the store held under the key at an instant between the request's
arrival and the reply, and that was live then, unless the clock was at its
last reading; a result that is no repetition goes to a caller of the flight
whose own call produced that entry, by the event just before that instant.
Two results that go back to instants between which the key always had a live
entry agree in status, header fields and body. -/
theorem replies_agree (wall : Int) (policies : List Policy)
    (events : List Event) (fits : ∀ e ∈ events, e.Fits)
    (lasting : ∀ p, p ∈ policies ∨ (∃ site, Event.setPolicy site p ∈ events) →
      Lasting p) :
    (∀ a n caller q key x, Asks events a caller q key →
      RepliesAt (start wall .empty policies) events n caller (.ok x) →
      ∃ j, a ≤ j ∧ j ≤ n
        ∧ ResolvedAt (start wall .empty policies) events
          (Fingerprint.addressOf key) x j
        ∧ (x.replayed = false → ∃ k l response entry, j = k + 1
          ∧ Produced (start wall .empty policies) events k l response entry
          ∧ x = .ofEntry entry false
          ∧ WaitsFor (start wall .empty policies) events n caller l))
    ∧ ∀ key x y i j, i ≤ j → j ≤ events.length →
        ResolvedAt (start wall .empty policies) events key x i →
        ResolvedAt (start wall .empty policies) events key y j →
        (∀ m u, i ≤ m → m ≤ j →
          (start wall .empty policies).after? events m = some u →
          u.live? key ≠ none) →
        x.status = y.status ∧ x.headers = y.headers ∧ x.body = y.body := by
  have fresh := fresh_start wall wellStored_empty policies
  refine ⟨fun a n caller q key x hasks hreply => ?_,
    fun key x y i j hij hj hx hy hlive =>
      hx.agree fresh fits hij hj hy hlive⟩
  obtain ⟨hsource, han⟩ := hasks.source fresh fits hreply
  obtain ⟨-, -, -, -, hn, -⟩ := hreply
  exact hsource.resolvedAt fresh fits
    (ruled_start wall .empty fun p hp => lasting p (.inl hp))
    (fun site p hp => lasting p (.inr ⟨site, hp⟩)) han (Nat.le_of_lt hn)

/-- Two callers wait for one flight, and a third asks another instance. -/
def orders : List Event :=
  [.arrive 0 0 Sample.order, .arrive 0 1 Sample.order, .lead 0 0,
    .answer 0 (.ok Sample.created), .wake 1, .wake 0,
    .arrive 1 2 Sample.order]

theorem fits_orders : ∀ e ∈ orders, e.Fits := by decide +kernel

theorem asks_orders : Asks orders 6 2 Sample.order Sample.orderKey where
  arrives := ⟨1, rfl⟩
  keyed := ⟨"first-order", rfl, by decide +kernel⟩
  only := by
    intro b site r hb
    have hlt := (List.getElem?_eq_some_iff.mp hb).1
    match b, hlt with
    | 0, _ | 1, _ | 2, _ | 3, _ | 4, _ | 5, _ => cases hb
    | 6, _ => rfl

/-- The third caller's result is the one that the first two wait for. -/
theorem replies_agree_orders :
    ∃ n x, RepliesAt (start 0 .empty [Sample.policy, Sample.policy]) orders n
        2 (.ok x)
      ∧ ∃ j, 6 ≤ j ∧ j ≤ n
        ∧ ResolvedAt (start 0 .empty [Sample.policy, Sample.policy]) orders
          (Fingerprint.addressOf Sample.orderKey) x j := by
  have lasting : ∀ p, p ∈ [Sample.policy, Sample.policy]
      ∨ (∃ site, Event.setPolicy site p ∈ orders) → Lasting p := by
    rintro p (hp | ⟨site, hp⟩)
    · have hpolicy : p = Sample.policy := by simpa using hp
      subst hpolicy
      exact ⟨by decide, by decide⟩
    · simp [orders] at hp
  obtain ⟨n, x, hreply⟩ := exists_repliesAt
    (fresh_start 0 wellStored_empty [Sample.policy, Sample.policy])
    fits_orders 7 (by decide) 2 (by decide +kernel)
  obtain ⟨j, h6j, hjn, hresolved, -⟩ := (replies_agree 0
    [Sample.policy, Sample.policy] orders fits_orders lasting).1 6 n 2
    Sample.order Sample.orderKey x asks_orders hreply
  exact ⟨n, x, hreply, j, h6j, hjn, hresolved⟩

-- ======================================================== the last reading

/-- At the clock's last reading no expiry is still to come, so nothing is
live. -/
theorem live?_last {s : System MemoryStore} (h : s.now.toNat + 1 = 2 ^ 64)
    (key : EntryKey) : s.live? key = none := by
  refine Option.eq_none_iff_forall_ne_some.mpr fun e he => ?_
  have hlt := UInt64.lt_iff_toNat_lt.mp (live?_eq_some.mp he).2
  have htop := e.expiresAt.toNat_lt
  omega

/-- At the clock's last reading a result can be had that no entry gives that
was live: the store holds the entry for it, but not a moment long. -/
theorem replies_agree_not_at_the_last :
    (∀ e ∈ placed, e.Fits) ∧ Lasting Sample.policy
    ∧ Asks placed 0 0 Sample.order Sample.orderKey
    ∧ ∃ n x, RepliesAt (start (2 ^ 64 - 1) .empty [Sample.policy]) placed n 0
        (.ok x)
      ∧ ∀ j u, j ≤ n →
        (start (2 ^ 64 - 1) .empty [Sample.policy]).after? placed j = some u →
        u.live? (Fingerprint.addressOf Sample.orderKey) = none := by
  have fresh := fresh_start (2 ^ 64 - 1) wellStored_empty [Sample.policy]
  obtain ⟨n, x, hreply⟩ := exists_repliesAt fresh fits_placed 4 (by decide) 0
    (by decide +kernel)
  have hn : n < placed.length := by
    obtain ⟨-, -, -, -, hn, -⟩ := hreply
    exact hn
  refine ⟨fits_placed, ⟨by decide, by decide⟩, asks_placed, n, x, hreply,
    fun j u hjn hu => live?_last ?_ _⟩
  -- no event moves the clock
  have hstill : placed.map advance = List.replicate 4 0 := rfl
  have hwall := wall_after fresh fits_placed
    (Nat.le_of_lt (Nat.lt_of_le_of_lt hjn hn)) hu
  rw [List.map_take, hstill, List.take_replicate, List.sum_replicate_nat,
    Nat.mul_zero] at hwall
  unfold now
  rw [hwall]
  rfl

end OnceProxy.Proxy.System
