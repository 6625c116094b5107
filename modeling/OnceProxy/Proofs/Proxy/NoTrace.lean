/-
Failures leave no trace.

The store changes in three ways: what has expired is dropped, an expiry is
moved, or a leader whose call was answered in time with a final response
writes the entry for it. The leader of a flight that ends otherwise, with
an error or without an outcome, has written nothing by then, at whichever
of its points it failed. The end frees the flight's slot, and only a
request that finds no live entry takes it again; so the first such request
for the key starts a flight of its own.
-/
import OnceProxy.Proofs.Proxy.Results

namespace OnceProxy.Proxy.System

open Http Store MemoryStore

-- ================================================================ actors

/-- The leader that acts at an event. -/
def actor? (s : System σ) : Event → Option Leader
  | .lead site flight => s.findLeader site flight
  | .crash site flight => s.findLeader site flight
  | .answer call _ => s.leaderOf call
  | .timeout call => s.leaderOf call
  | _ => none

/-- The event looks up a request under this key at this instance, and finds
no live entry. -/
def Misses (s : System MemoryStore) (e : Event) (site : Nat)
    (key : EntryKey) : Prop :=
  ∃ caller r, s.attempt? e = some (site, caller, r)
    ∧ r.fingerprint.entryKey = key ∧ s.live? key = none

/-- A flight that ended without a result. -/
def Failed (how : FlightEnd Outcome) : Prop :=
  how = .aborted ∨ ∃ e, how = .completed (.error e)

instance : DecidablePred Failed
  | .aborted => .isTrue (.inl rfl)
  | .completed (.error e) => .isTrue (.inr ⟨e, rfl⟩)
  | .completed (.ok _) => .isFalse (by
      rintro (h | ⟨_, h⟩) <;> cases h)

section Moves

variable {s t : System MemoryStore} {e : Event} {site : Nat}
  {caller : CallerId} {r : Prepared} {policy : Policy} {joined : Nat}

/-- A leader that acts leaves the store alone, or ends its flight with a
result. -/
theorem Coherent.store_of_actor (h : s.Coherent) (hmove : Move s e t)
    {l : Leader} (hl : s.actor? e = some l) :
    t.store = s.store ∨ ∃ result,
      t.outcome? l.site l.guard.id = some (.completed (.ok result)) := by
  cases hmove.deed with
  | called o st m leads idle look =>
      rw [converse_get hmove.stored] at look
      exact .inl (congrArg System.store (Prod.mk.inj look).2).symm
  | ended e o how st m close =>
      have ho := close.mem_leaders
      cases close.ending hmove.stored with
      | stored o c response leads waits inTime final free =>
          have hsame : o = l := Option.some.inj (leads.symm.trans hl)
          subst hsame
          refine .inr
            ⟨⟨o.request.entryFor o.policy response s.now, true⟩, ?_⟩
          exact h.outcome?_of_finish ho rfl
      | found | unanswered | unfinal | held | late | died => exact .inl rfl
  | attempted | retried | swept => cases hl
  | refused | passed | passerAnswered | passerLate | settled | exhausted
  | left | elapsed | advanced | policySet => exact .inl rfl

/-- An attempt that finds neither a live entry nor a flight leads one. -/
theorem Try.leads (h : Try MemoryStore.backend s caller site r policy joined t)
    (stored : s.store.WellStored)
    (hmissing : s.live? r.fingerprint.entryKey = none)
    (hfree : ∀ id, (r.fingerprint.entryKey, id) ∉ s.slots site) :
    ∃ id, t.leaders = s.leaders
      ++ [⟨site, ⟨r.fingerprint.entryKey, id⟩, r, policy, none⟩] := by
  cases h with
  | answered x st m found =>
      rw [lookup_of_none stored hmissing] at found
      cases found
  | followed id st m m' missed taken =>
      exact absurd (Association.mem_of_lookup taken) (hfree id)
  | led u st m m' missed there free => exact ⟨u.nextId, rfl⟩

/-- So does a request that is looked up and finds neither. -/
theorem Move.leads (h : Move s e t)
    (hr : s.attempt? e = some (site, caller, r))
    (hmissing : s.live? r.fingerprint.entryKey = none)
    (hfree : ∀ id, (r.fingerprint.entryKey, id) ∉ s.slots site) :
    ∃ id policy, t.leaders = s.leaders
      ++ [⟨site, ⟨r.fingerprint.entryKey, id⟩, r, policy, none⟩] := by
  obtain ⟨policy, joined, b, -, hb, -, attempt⟩ := step_attempt hr h.happens
  rcases hb with rfl | rfl
  · obtain ⟨id, hleaders⟩ := attempt.leads h.stored hmissing hfree
    exact ⟨id, policy, hleaders⟩
  · obtain ⟨id, hleaders⟩ := attempt.leads (s := s.dropWaiter caller)
      h.stored hmissing hfree
    exact ⟨id, policy, hleaders⟩

end Moves

section Runs

variable {s₀ : System MemoryStore} {events : List Event}
  (fresh : s₀.Fresh) (fits : ∀ e ∈ events, e.Fits)

include fresh fits

/-- A failed flight's leader has never written to the store. -/
theorem EndedAt.wrote_nothing {n : Nat} {l : Leader}
    {how : FlightEnd Outcome} (h : EndedAt s₀ events n l how)
    (hfailed : Failed how) {k : Nat} {e : Event} (he : events[k]? = some e)
    {s t : System MemoryStore} (hs : s₀.after? events k = some s)
    (ht : s₀.after? events (k + 1) = some t) {o : Leader}
    (ho : s.actor? e = some o) (hsite : o.site = l.site)
    (hid : o.guard.id = l.guard.id) : t.store = s.store := by
  have hk := (List.getElem?_eq_some_iff.mp he).1
  have hn : n < events.length := by
    obtain ⟨a, -, -, ha, -⟩ := h
    exact (List.getElem?_eq_some_iff.mp ha).1
  have hcoherent := (invariants_after fresh fits (Nat.le_of_lt hk) hs).2
  rcases hcoherent.store_of_actor (move_of_after fresh fits he hs ht) ho with
    hsame | ⟨result, hend⟩
  · exact hsame
  · -- the flight would have two ends, one of them a failure
    exfalso
    rw [hsite, hid] at hend
    have hboth : how = .completed (.ok result) := by
      rcases Nat.lt_or_ge n k with hlt | hge
      · have hearly := h.outcome fresh fits (Nat.lt_succ_of_lt hlt) hk ht
        rw [hend] at hearly
        exact (Option.some.inj hearly).symm
      · obtain ⟨a, u, v, -, -, hv, -, hfinal⟩ := h
        have hlate := outcome?_after fresh fits (Nat.succ_le_succ hge) hn ht
          hv hend
        rw [hfinal] at hlate
        exact Option.some.inj hlate
    rcases hfailed with rfl | ⟨fault, rfl⟩
    · cases hboth
    · cases hboth

/-- The slot of a flight that has ended is gone. -/
theorem EndedAt.slot_gone {n : Nat} {l : Leader} {how : FlightEnd Outcome}
    (h : EndedAt s₀ events n l how) {m : Nat} (hnm : n < m)
    (hm : m ≤ events.length) {t : System MemoryStore}
    (ht : s₀.after? events m = some t) (key : EntryKey) :
    (key, l.guard.id) ∉ t.slots l.site := by
  intro hin
  have hend := h.outcome fresh fits hnm hm ht
  rw [(invariants_after fresh fits hm ht).2.unended hin] at hend
  cases hend

/-- When a flight ends, its key is without one at the instance. -/
theorem EndedAt.free {n : Nat} {l : Leader} {how : FlightEnd Outcome}
    (h : EndedAt s₀ events n l how) {v : System MemoryStore}
    (hv : s₀.after? events (n + 1) = some v) (id : FlightId) :
    (l.guard.key, id) ∉ v.slots l.site := by
  have hgone := h.slot_gone fresh fits (Nat.lt_succ_self n)
  obtain ⟨e, u, v', he, hu, hv', hending, -⟩ := h
  have hn := (List.getElem?_eq_some_iff.mp he).1
  have hcoherent := (invariants_after fresh fits (Nat.le_of_lt hn) hu).2
  intro hin
  have hdeed := (move_of_after fresh fits he hu hv).deed
  rcases hcoherent.slot_taken hdeed.shift hin with
    hold | ⟨caller, r, hattempt, -⟩
  · -- the slot before was the flight's own
    have hflying := hcoherent.flying l hending.mem_leaders
    have hsame := hcoherent.slot_unique hold hflying
    subst hsame
    exact hgone hn hv l.guard.key hin
  · -- what ends a flight looks nothing up
    generalize v'.store = store at hending
    cases hending <;> cases hattempt

/-- It stays without one until a request finds no live entry. -/
theorem EndedAt.free_until {n : Nat} {l : Leader} {how : FlightEnd Outcome}
    (h : EndedAt s₀ events n l how) {m : Nat} (hnm : n < m)
    (hm : m ≤ events.length) {t : System MemoryStore}
    (ht : s₀.after? events m = some t)
    (hfirst : ∀ p e s, n < p → p < m → events[p]? = some e →
      s₀.after? events p = some s → ¬Misses s e l.site l.guard.key) :
    ∀ id, (l.guard.key, id) ∉ t.slots l.site := by
  obtain ⟨v, hv⟩ := exists_after hnm ht
  refine move_induction fresh fits (P := fun p t => p ≤ m →
    ∀ id, (l.guard.key, id) ∉ t.slots l.site) hv
    (fun _ => h.free fresh fits hv)
    (fun p e u w hnp he hu _ hinv hmove hP hpm id hin => ?_) hnm hm ht
    (Nat.le_refl m)
  rcases hinv.2.slot_taken hmove.deed.shift hin with
    hold | ⟨caller, r, hattempt, hkey, hlacks⟩
  · exact hP (Nat.le_of_succ_le hpm) id hold
  · exact hfirst p e u hnp hpm he hu
      ⟨caller, r, hattempt, hkey, hlacks.missing hmove.stored⟩

/-- An entry is inserted by a leader whose call has been answered within
the bound of the leader's policy, and with a status final under it. -/
theorem Produced.in_time {n : Nat} {l : Leader} {response : Response}
    {entry : Entry} (h : Produced s₀ events n l response entry) :
    l.guard.key = Fingerprint.addressOf l.request.key
      ∧ l.policy.isDefinitive response.status = true
      ∧ ∃ i u s, i < n ∧ StartsCall s₀ events i u { l with waiting := none }
        ∧ events[n]? = some (.answer u.calls.length (.ok response))
        ∧ s₀.after? events n = some s
        ∧ s.elapsed ≤ u.elapsed + l.policy.originTimeout := by
  obtain ⟨c, s, v, he, hs, -, hleads, hwaits, htime, hfinal, -⟩ := h
  have hn := Nat.le_of_lt (List.getElem?_eq_some_iff.mp he).1
  have hl := List.mem_of_find?_eq_some hleads
  obtain ⟨i, u, hin, hstarts, rfl⟩ :=
    (origins_after fresh fits hn hs).calls l hl c hwaits
  exact ⟨guard_key_after fresh fits hn hs hl, hfinal, i, u, s, hin, hstarts,
    he, hs, htime⟩

end Runs

-- ============================================================ the theorem

/-- Any number of instances share a store of entries. An event that changes
the store drops what has expired, or moves the expiry of a live entry that
a request finds as its own result, or answers a leader's call, within the
bound of the leader's policy since the call started and with a status that
this policy takes for final, and inserts the entry for the answer under the
leader's key, where none is live. A leader whose flight fails has changed
the store by none of its events. From the end on the flight's slot is gone,
and the next request for the key at the instance that finds no live entry
leads a new one. -/
theorem failures_leave_no_trace (wall : Int) (store : MemoryStore)
    (stored : store.WellStored) (policies : List Policy)
    (events : List Event) (fits : ∀ e ∈ events, e.Fits) :
    (∀ n e s t, events[n]? = some e →
      (start wall store policies).after? events n = some s →
      (start wall store policies).after? events (n + 1) = some t →
      t.store = s.store
      ∨ (e = .sweep ∧ t.store = s.store.purge s.now)
      ∨ (∃ site caller r found expiry,
          s.attempt? e = some (site, caller, r)
          ∧ s.live? r.fingerprint.entryKey = some found
          ∧ found.answers r.fingerprint = true ∧ found.expiresAt < expiry
          ∧ t.store = s.store.writeEntry r.fingerprint.entryKey
            (found.withExpiry expiry))
      ∨ ∃ l response entry i u,
          Produced (start wall store policies) events n l response entry
          ∧ l.guard.key = Fingerprint.addressOf l.request.key
          ∧ l.policy.isDefinitive response.status = true
          ∧ i < n ∧ StartsCall (start wall store policies) events i u
            { l with waiting := none }
          ∧ e = .answer u.calls.length (.ok response)
          ∧ s.elapsed ≤ u.elapsed + l.policy.originTimeout)
    ∧ ∀ n l how, EndedAt (start wall store policies) events n l how →
      (Failed how → ∀ k e s t o, events[k]? = some e →
        (start wall store policies).after? events k = some s →
        (start wall store policies).after? events (k + 1) = some t →
        s.actor? e = some o → o.site = l.site → o.guard.id = l.guard.id →
        t.store = s.store)
      ∧ (∀ m t, n < m → m ≤ events.length →
        (start wall store policies).after? events m = some t →
        ∀ key, (key, l.guard.id) ∉ t.slots l.site)
      ∧ ∀ m e s t caller r, n < m → events[m]? = some e →
        (start wall store policies).after? events m = some s →
        (start wall store policies).after? events (m + 1) = some t →
        s.attempt? e = some (l.site, caller, r) →
        r.fingerprint.entryKey = l.guard.key →
        s.live? l.guard.key = none →
        (∀ p e s, n < p → p < m → events[p]? = some e →
          (start wall store policies).after? events p = some s →
          ¬Misses s e l.site l.guard.key) →
        ∃ id policy, t.leaders
          = s.leaders ++ [⟨l.site, ⟨l.guard.key, id⟩, r, policy, none⟩] := by
  have fresh := fresh_start wall stored policies
  refine ⟨fun n e s t he hs ht => ?_, fun n l how hended =>
    ⟨fun hfailed k e s t o he hs ht ho hsite hid =>
      hended.wrote_nothing fresh fits hfailed he hs ht ho hsite hid,
    fun m t hnm hm ht key => hended.slot_gone fresh fits hnm hm ht key,
    fun m e s t caller r hnm he hs ht hr hkey hmissing hfirst => ?_⟩⟩
  · rcases store_after fresh fits he hs ht with
      hidle | hpurge | hrefresh | ⟨l, response, entry, hproduced⟩
    · exact .inl hidle
    · exact .inr (.inl hpurge)
    · exact .inr (.inr (.inl hrefresh))
    · obtain ⟨hkey, hfinal, i, u, s', hin, hstarts, hanswer, hs', htime⟩ :=
        hproduced.in_time fresh fits
      rw [hs] at hs'
      cases hs'
      rw [he] at hanswer
      exact .inr (.inr (.inr ⟨l, response, entry, i, u, hproduced, hkey,
        hfinal, hin, hstarts, Option.some.inj hanswer, htime⟩))
  · have hm := Nat.le_of_lt (List.getElem?_eq_some_iff.mp he).1
    rw [← hkey] at hmissing ⊢
    refine (move_of_after fresh fits he hs ht).leads hr hmissing ?_
    rw [hkey]
    exact hended.free_until fresh fits hnm hm hs hfirst

/-- The origin fails, and a second request is sent. -/
def resent : List Event :=
  [.arrive 0 0 Sample.order, .lead 0 0, .answer 0 (.error (.failed "reset")),
    .wake 0, .arrive 0 1 Sample.order]

theorem fits_resent : ∀ e ∈ resent, e.Fits := by decide +kernel

/-- The failed flight's slot is gone. -/
theorem failures_leave_no_trace_resent :
    ∃ n l how, n < 3
      ∧ EndedAt (start 0 .empty [Sample.policy]) resent n l how ∧ Failed how
      ∧ ∀ m t, n < m → m ≤ 5 →
        (start 0 .empty [Sample.policy]).after? resent m = some t →
        ∀ key, (key, l.guard.id) ∉ t.slots l.site := by
  have hfailed : (((start 0 .empty [Sample.policy]).after? resent 3).bind
      (·.outcome? 0 0)).any (Failed ·) = true := by decide +kernel
  obtain ⟨how, hbind, hhow⟩ := (Option.any_eq_true _ _).mp hfailed
  obtain ⟨s, hs, hend⟩ := Option.bind_eq_some_iff.mp hbind
  obtain ⟨n, l, hn, -, -, hended⟩ := ended_of_outcome?
    (fresh_start 0 wellStored_empty [Sample.policy]) fits_resent
    (by decide) hs hend
  exact ⟨n, l, how, hn, hended, of_decide_eq_true hhow,
    ((failures_leave_no_trace 0 .empty wellStored_empty [Sample.policy]
      resent fits_resent).2 n l how hended).2.1⟩

end OnceProxy.Proxy.System
