/-
At most one call with effect: while a key's result lives, nobody calls the
origin for that key again.

A leader looks into the store in the same event in which it starts its
call, so at that instant no entry of its key is live. What it stores, or
finds stored, when its call is answered stays live until its expiry
(`Proofs/Proxy/Run`). A second call of the key thus finds the entry expired,
or there was none because the first call gave no final response in time.
Within one instance the flight's slot adds that two calls of a key are
never in progress together.
-/
import OnceProxy.Proofs.Proxy.Origins

namespace OnceProxy.Proxy.System

open Http Store MemoryStore

-- ========================================================== ends of calls

/-- The events that end a leader's call without a final response in time: a
failure of the origin, a response that is not final, the bound on the call,
the leader's death. -/
def Fruitless (l : Leader) (call : CallId) : Event → Prop
  | .answer c (.error _) => c = call
  | .answer c (.ok response) =>
      c = call ∧ l.policy.isDefinitive response.status = false
  | .timeout c => c = call
  | .crash site flight => site = l.site ∧ flight = l.guard.id
  | _ => False

/-- The event at an instant brings a final response to a leader's call in
time, and the flight ends with this entry, which the store holds then. -/
def DecidedAt (s₀ : System MemoryStore) (events : List Event) (n : Nat)
    (l : Leader) (call : CallId) (entry : Entry) : Prop :=
  ∃ response v fresh, events[n]? = some (.answer call (.ok response))
    ∧ l.policy.isDefinitive response.status = true
    ∧ s₀.after? events (n + 1) = some v
    ∧ v.outcome? l.site l.guard.id = some (.completed (.ok ⟨entry, fresh⟩))
    ∧ v.store.held? l.guard.key = some entry

/-- A refused response is not final. -/
theorem isDefinitive_of_refused {status : Status} {policy : Policy}
    {e : ProxyError} (h : classify status policy = .error e) :
    policy.isDefinitive status = false := by
  unfold classify at h
  split at h
  · cases h
  · next hnot => exact Bool.eq_false_iff.mpr hnot

section Runs

variable {s₀ : System MemoryStore} {events : List Event}

/-- A call ends in one of these ways. -/
theorem EndedAt.call (fits : ∀ e ∈ events, e.Fits) {n : Nat} {l : Leader}
    {how : FlightEnd Outcome} (h : EndedAt s₀ events n l how) {c : OpenCall}
    (hc : l.waiting = some c) :
    ∃ e, events[n]? = some e ∧ (Fruitless l c.call e
      ∨ ∃ entry, DecidedAt s₀ events n l c.call entry) := by
  obtain ⟨e, u, v, he, hu, hv, hending, hend⟩ := h
  refine ⟨e, he, ?_⟩
  generalize hstore : v.store = store at hending
  cases hending with
  | found l entry leads idle there =>
      rw [idle] at hc
      cases hc
  | unanswered l d fault leads waits inTime =>
      rw [waits] at hc
      cases hc
      exact .inl rfl
  | unfinal l d response fault leads waits inTime refused =>
      rw [waits] at hc
      cases hc
      exact .inl ⟨rfl, isDefinitive_of_refused refused⟩
  | stored l d response leads waits inTime final free =>
      rw [waits] at hc
      cases hc
      refine .inr ⟨_, response, v, true, he, final, hv, hend, ?_⟩
      rw [hstore, held?_writeEntry
        (fits_entryFor (fits _ (List.mem_of_getElem? he)) ..)]
      exact if_pos rfl
  | held l d response entry leads waits inTime final there =>
      rw [waits] at hc
      cases hc
      refine .inr ⟨entry, response, v, false, he, final, hv, hend, ?_⟩
      rw [hstore]
      exact (live?_eq_some.mp there).1
  | late l d leads waits overdue =>
      rw [waits] at hc
      cases hc
      exact .inl rfl
  | died l leads => exact .inl ⟨rfl, rfl⟩

variable (fresh : s₀.Fresh) (fits : ∀ e ∈ events, e.Fits)

include fresh fits

/-- When a call starts, no other of its key is in progress at the
instance. -/
theorem StartsCall.alone {i : Nat} {s : System MemoryStore} {l : Leader}
    (h : StartsCall s₀ events i s l) {m : Leader} (hm : m ∈ s.leaders)
    (hsite : m.site = l.site) (hkey : m.request.key = l.request.key) :
    m = l := by
  obtain ⟨hl, -, -, -⟩ := h.spec fresh fits
  have hi := (List.getElem?_eq_some_iff.mp h.2.1).1
  refine (invariants_after fresh fits (Nat.le_of_lt hi) h.1).2.single_key hm
    hl hsite ?_
  rw [guard_key_after fresh fits (Nat.le_of_lt hi) h.1 hm,
    guard_key_after fresh fits (Nat.le_of_lt hi) h.1 hl, hkey]

/-- Before another call of the key starts at the instance, a call has
ended. -/
theorem StartsCall.ended {i j : Nat} {s u : System MemoryStore}
    {l m : Leader} (h : StartsCall s₀ events i s l)
    (hj : StartsCall s₀ events j u m) (hij : i < j)
    (hsite : m.site = l.site) (hkey : m.request.key = l.request.key) :
    ∃ n e, i < n ∧ n < j ∧ events[n]? = some e
      ∧ (Fruitless l s.calls.length e
        ∨ ∃ entry, DecidedAt s₀ events n l s.calls.length entry) := by
  obtain ⟨-, -, -, t, ht, -, hwaits⟩ := h.spec fresh fits
  have hlen := (List.getElem?_eq_some_iff.mp hj.2.1).1
  rcases leader_or_ended_after fresh fits hij (Nat.le_of_lt hlen) ht hj.1
      hwaits rfl with hstill | ⟨n, how, hin, hnj, hended⟩
  · -- the first leader would be the second, which waits for nothing
    have hsame := hj.alone fresh fits hstill hsite.symm hkey.symm
    have hidle := (hj.spec fresh fits).2.1
    rw [← hsame] at hidle
    cases hidle
  · obtain ⟨e, he, hcase⟩ := hended.call fits rfl
    exact ⟨n, e, hin, hnj, he, hcase⟩

/-- What is live between two instants has expired at the second, if nothing
is live there. -/
theorem expired_of_free (steady : Steady s₀ events) {j : Nat}
    (hj : j ≤ events.length) {u : System MemoryStore}
    (hu : s₀.after? events j = some u) {k : EntryKey}
    (hfree : u.live? k = none) {n : Nat} (hnj : n ≤ j)
    {w : System MemoryStore} (hw : s₀.after? events n = some w) {f : Entry}
    (hf : w.live? k = some f) : f.expiresAt ≤ u.now := by
  rcases live_or_expired fresh fits steady hnj hj hw hu hf with
    ⟨g, hg, -, -⟩ | hexpired
  · rw [hfree] at hg
    cases hg
  · exact hexpired

/-- What is held at an instant has expired at a later one, if nothing is
live there. -/
theorem expired_of_held (steady : Steady s₀ events) {j : Nat}
    (hj : j ≤ events.length) {u : System MemoryStore}
    (hu : s₀.after? events j = some u) {k : EntryKey}
    (hfree : u.live? k = none) {n : Nat} (hnj : n ≤ j)
    {w : System MemoryStore} (hw : s₀.after? events n = some w) {f : Entry}
    (hf : w.store.held? k = some f) : f.expiresAt ≤ u.now := by
  by_cases hlive : w.now < f.expiresAt
  · exact expired_of_free fresh fits steady hj hu hfree hnj hw
      (live?_eq_some.mpr ⟨hf, hlive⟩)
  · exact UInt64.le_trans (UInt64.not_lt.mp hlive)
      (steady n j w u hnj hj hw hu)

end Runs

-- ============================================================ the theorem

/-- Any number of instances share a store that starts empty. When a call
for a key starts, the store has no live record of the key, and no other
call for it is in progress at the instance. Of two calls for a key at one
instance the first has ended when the second starts: without a final
response in time, or with one, and then the entry that decided it has
expired by now, and so has every entry of the key that was live since. Every
call on record is started in this way, or is that of a request without
key. -/
theorem single_effective_call (wall : Int) (policies : List Policy)
    (events : List Event) (fits : ∀ e ∈ events, e.Fits)
    (steady : Steady (start wall .empty policies) events)
    {i : Nat} {s : System MemoryStore} {l : Leader}
    (h : StartsCall (start wall .empty policies) events i s l) :
    s.store.get s.now (Fingerprint.addressOf l.request.key) = none
    ∧ (∀ m ∈ s.leaders, m.site = l.site → m.request.key = l.request.key →
        m.waiting = none)
    ∧ (∀ j u m, i < j →
        StartsCall (start wall .empty policies) events j u m →
        m.site = l.site → m.request.key = l.request.key →
        ∃ n e, i < n ∧ n < j ∧ events[n]? = some e
          ∧ (Fruitless l s.calls.length e
            ∨ ∃ entry,
              DecidedAt (start wall .empty policies) events n l
                s.calls.length entry
              ∧ entry.expiresAt ≤ u.now
              ∧ ∀ k w f, n < k → k ≤ j →
                  (start wall .empty policies).after? events k = some w →
                  w.live? (Fingerprint.addressOf l.request.key) = some f →
                  f.expiresAt ≤ u.now))
    ∧ ∀ k w n o, (start wall .empty policies).after? events k = some w →
        w.calls[n]? = some o →
        ∃ j u, j < k ∧ (start wall .empty policies).after? events j = some u
          ∧ u.calls.length = n
          ∧ ((∃ site caller q p, events[j]? = some (.arrive site caller q)
              ∧ q.key = none ∧ u.policy? site = some p
              ∧ o = q.outbound p u.now)
            ∨ ∃ m, StartsCall (start wall .empty policies) events j u m
              ∧ o = m.request.outbound m.policy u.now) := by
  have fresh := fresh_start wall wellStored_empty policies
  have hi := Nat.le_of_lt (List.getElem?_eq_some_iff.mp h.2.1).1
  obtain ⟨hl, hidle, hfree, -⟩ := h.spec fresh fits
  have hguard := guard_key_after fresh fits hi h.1 hl
  refine ⟨?_, fun m hm hsite hkey => ?_, fun j u m hij hj hsite hkey => ?_,
    fun k w n o hw ho => keyless_or_started hw (Nat.zero_le n) ho⟩
  · have hstored := (invariants_after fresh fits hi h.1).1
    rw [hstored.get_eq_none, ← hguard]
    exact hfree
  · rw [h.alone fresh fits hm hsite hkey]
    exact hidle
  · obtain ⟨n, e, hin, hnj, he, hcase⟩ :=
      h.ended fresh fits hj hij hsite hkey
    refine ⟨n, e, hin, hnj, he, ?_⟩
    rcases hcase with hfruitless | ⟨entry, hdecided⟩
    · exact .inl hfruitless
    · refine .inr ⟨entry, hdecided, ?_⟩
      obtain ⟨hm, -, hfree', -⟩ := hj.spec fresh fits
      have hj' := Nat.le_of_lt (List.getElem?_eq_some_iff.mp hj.2.1).1
      rw [guard_key_after fresh fits hj' hj.1 hm, hkey] at hfree'
      obtain ⟨response, v, first, -, -, hv, -, hheld⟩ := hdecided
      rw [hguard] at hheld
      refine ⟨expired_of_held fresh fits steady hj' hj.1 hfree' hnj hv hheld,
        fun k w f _ hkj hw hf => ?_⟩
      exact expired_of_free fresh fits steady hj' hj.1 hfree' hkj hw hf

/-- A key is used once more a day later, when its entry has expired. -/
def reorder : List Event :=
  Sample.stored ++ [.advance Sample.policy.entryTtl, .arrive 0 1 Sample.order, .lead 0 1]

theorem fits_reorder : ∀ e ∈ reorder, e.Fits := by decide +kernel

/-- Both uses of the key call the origin, and the second finds the first
one's entry expired. -/
theorem single_effective_call_reorder :
    ∃ s l u m,
      StartsCall (start 0 .empty [Sample.policy]) reorder 1 s l
      ∧ StartsCall (start 0 .empty [Sample.policy]) reorder 5 u m
      ∧ s.store.get s.now (Fingerprint.addressOf l.request.key) = none
      ∧ ∃ n e, 1 < n ∧ n < 5 ∧ reorder[n]? = some e
        ∧ (Fruitless l s.calls.length e
          ∨ ∃ entry,
            DecidedAt (start 0 .empty [Sample.policy]) reorder n l
              s.calls.length entry
            ∧ entry.expiresAt ≤ u.now) := by
  obtain ⟨s, l, hl, hsite, hkey, -⟩ := exists_startsCall
    (start 0 .empty [Sample.policy]) reorder 1 0 0 Sample.orderKey 0 rfl
    (by decide +kernel) (by decide +kernel)
  obtain ⟨u, m, hm, hsite', hkey', -⟩ := exists_startsCall
    (start 0 .empty [Sample.policy]) reorder 5 0 1 Sample.orderKey 1 rfl
    (by decide +kernel) (by decide +kernel)
  have steady : Steady (start 0 .empty [Sample.policy]) reorder :=
    steady_of_wall_lt (fresh_start 0 wellStored_empty _) fits_reorder
      (by decide)
  obtain ⟨hfree, -, hsecond, -⟩ := single_effective_call 0 [Sample.policy]
    reorder fits_reorder steady hl
  obtain ⟨n, e, hin, hnj, he, hcase⟩ := hsecond 5 u m (by decide) hm
    (hsite'.trans hsite.symm) (hkey'.trans hkey.symm)
  refine ⟨s, l, u, m, hl, hm, hfree, n, e, hin, hnj, he, ?_⟩
  rcases hcase with hfruitless | ⟨entry, hdecided, hexpired, -⟩
  · exact .inl hfruitless
  · exact .inr ⟨entry, hdecided, hexpired⟩

end OnceProxy.Proxy.System
