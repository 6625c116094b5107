/-
Policies: what they all have in common, everything at work has.

A policy enters a system at its start or by an event, and is handed from an
instance to the requests that arrive there and from those to the leaders
that work for them. Nobody changes one, so a property of the policies that
enter is one of every policy that is worked under (`ruled_after`).
-/
import OnceProxy.Proofs.Proxy.Run

namespace OnceProxy.Proxy.System

open Store

-- ============================================================== in force

/-- A change of the flights leaves the policies. -/
theorem policy?_updateFlights (s : System σ) (site : Nat)
    (f : FlightTable Outcome → FlightTable Outcome) (n : Nat) :
    (s.updateFlights site f).policy? n = s.policy? n := by
  unfold policy? updateFlights
  rw [List.getElem?_modify]
  cases s.instances[n]? with
  | none => rfl
  | some i => by_cases hn : site = n <;> simp [hn]

/-- A new policy is in force at its instance, where there is one. -/
theorem eq_or_of_policy?_set {s : System σ} {site n : Nat}
    {policy p : Policy}
    (h : policy? { s with instances := s.instances.modify site fun i =>
      { i with policy := policy } } n = some p) :
    p = policy ∨ s.policy? n = some p := by
  unfold policy? at h ⊢
  dsimp only at h
  rw [List.getElem?_modify] at h
  cases hi : s.instances[n]? with
  | none =>
      rw [hi] at h
      cases h
  | some i =>
      rw [hi, Option.map_eq_map, Option.map_some] at h
      by_cases hn : site = n
      · rw [if_pos hn] at h
        cases h
        exact .inl rfl
      · rw [if_neg hn] at h
        exact .inr h

/-- Everything is done under policies of one kind. -/
structure Ruled (P : Policy → Prop) (s : System MemoryStore) : Prop where
  instances : ∀ n p, s.policy? n = some p → P p
  leaders : ∀ l ∈ s.leaders, P l.policy
  waiters : ∀ w ∈ s.waiters, P w.policy

theorem ruled_start {P : Policy → Prop} (wall : Int) (store : MemoryStore)
    {policies : List Policy} (h : ∀ p ∈ policies, P p) :
    (start wall store policies).Ruled P := by
  refine ⟨fun n p hp => ?_, fun l hl => absurd hl List.not_mem_nil,
    fun w hw => absurd hw List.not_mem_nil⟩
  unfold policy? start at hp
  rw [List.getElem?_map, Option.map_map] at hp
  obtain ⟨q, hq, rfl⟩ := Option.map_eq_some_iff.mp hp
  exact h q (List.mem_of_getElem? hq)

section Deeds

variable {P : Policy → Prop} {s t : System MemoryStore} {e : Event}

/-- An attempt hands its policy on. -/
theorem Try.ruled {caller : CallerId} {site : Nat} {r : Prepared}
    {policy : Policy} {joined : Nat}
    (h : Try MemoryStore.backend s caller site r policy joined t)
    (hs : s.Ruled P) (hpolicy : P policy) : t.Ruled P := by
  cases h with
  | answered x st m found => exact ⟨hs.instances, hs.leaders, hs.waiters⟩
  | followed id st m m' missed taken =>
      refine ⟨hs.instances, hs.leaders, fun w hw => ?_⟩
      rcases List.mem_append.mp hw with hw' | hw'
      · exact hs.waiters w hw'
      · obtain rfl := List.mem_singleton.mp hw'
        exact hpolicy
  | led u st m m' missed there free =>
      refine ⟨fun n p hp => ?_, fun l hl => ?_, fun w hw => ?_⟩
      · exact hs.instances n p ((policy?_updateFlights s site
          (fun u => (u.join r.fingerprint.entryKey).2.2) n).symm.trans hp)
      · rcases List.mem_append.mp hl with hl' | hl'
        · exact hs.leaders l hl'
        · obtain rfl := List.mem_singleton.mp hl'
          exact hpolicy
      · rcases List.mem_append.mp hw with hw' | hw'
        · exact hs.waiters w hw'
        · obtain rfl := List.mem_singleton.mp hw'
          exact hpolicy

/-- Steps hand policies on; new ones come from outside only. -/
theorem Deed.ruled (h : Deed MemoryStore.backend s e t) (hs : s.Ruled P)
    (hset : ∀ site p, e = .setPolicy site p → P p) : t.Ruled P := by
  have hkept : ∀ {u : System MemoryStore}, u.instances = s.instances →
      u.leaders = s.leaders → (∀ w ∈ u.waiters, w ∈ s.waiters) →
      u.Ruled P := by
    intro u hinstances hleaders hwaiters
    refine ⟨fun n p hp => ?_, fun l hl => ?_,
      fun w hw => hs.waiters w (hwaiters w hw)⟩
    · unfold policy? at hp
      rw [hinstances] at hp
      exact hs.instances n p hp
    · rw [hleaders] at hl
      exact hs.leaders l hl
  cases h with
  | attempted site caller r i key t there keyed attempt =>
      exact attempt.ruled hs
        (hs.instances site i.policy (policy?_of_instance there))
  | retried w t waits isOver more attempt =>
      exact attempt.ruled
        (hkept rfl rfl fun _ hw => List.mem_of_mem_filter hw)
        (hs.waiters w (List.mem_of_find?_eq_some waits))
  | called l st m leads idle look =>
      refine ⟨hs.instances, fun o ho => ?_, hs.waiters⟩
      obtain ⟨q, hq, rfl⟩ := List.mem_map.mp ho
      split
      · exact hs.leaders q hq
      · exact hs.leaders q hq
  | ended e l how st m close =>
      refine ⟨fun n p hp => ?_, fun o ho => ?_, hs.waiters⟩
      · exact hs.instances n p
          ((policy?_updateFlights s l.site (·.finish l.guard how)
            n).symm.trans hp)
      · exact hs.leaders o (List.mem_of_mem_filter ho)
  | policySet site policy =>
      refine ⟨fun n p hp => ?_, hs.leaders, hs.waiters⟩
      rcases eq_or_of_policy?_set hp with rfl | hold
      · exact hset site p rfl
      · exact hs.instances n p hold
  | settled | exhausted | left =>
      exact hkept rfl rfl fun _ hw => List.mem_of_mem_filter hw
  | refused | passed | passerAnswered | passerLate | elapsed | advanced
  | swept => exact hkept rfl rfl fun _ hw => hw

end Deeds

-- ================================================================== runs

/-- At every instant everything is done under policies of that kind. -/
theorem ruled_after {s₀ : System MemoryStore} {events : List Event}
    (fresh : s₀.Fresh) (fits : ∀ e ∈ events, e.Fits) {P : Policy → Prop}
    (start : s₀.Ruled P)
    (later : ∀ site p, Event.setPolicy site p ∈ events → P p) {i : Nat}
    (hi : i ≤ events.length) {s : System MemoryStore}
    (hs : s₀.after? events i = some s) : s.Ruled P := by
  refine move_induction fresh fits (P := fun _ s => s.Ruled P) after?_zero
    start (fun n e u v _ he _ _ _ hmove hP => ?_) (Nat.zero_le i) hi hs
  refine hmove.deed.ruled hP fun site p hset => ?_
  subst hset
  exact later site p (List.mem_of_getElem? he)

end OnceProxy.Proxy.System
