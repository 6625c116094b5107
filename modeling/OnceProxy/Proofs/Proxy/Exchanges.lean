/-
Exchanges of policies, and who notices.

Only an arrival reads the policies in force: for every other event, systems
that are alike but for these are so afterwards (`step_under`). Two runs that
differ in exchanges only are therefore at the same time after the same events
(`clock_run`), and they part at the earliest when another request comes
(`run_alike`). A leader has its policy from the request that appointed it and
keeps it until it ends its flight (`Coherent.leader_goesOn`), and how it does
so is not a matter of the policies in force (`Close.under`).
-/
import OnceProxy.Proofs.Proxy.Policies
import OnceProxy.Proofs.Proxy.Views

namespace OnceProxy.Proxy

open Store

variable {σ : Type} {B : Backend σ}

/-- The event exchanges a policy. -/
def Event.isExchange : Event → Bool
  | .setPolicy .. => true
  | _ => false

/-- The events but for the exchanges. -/
def unexchanged (events : List Event) : List Event := events.filter fun e => !e.isExchange

/-- The second is the first leader, which may have started its call
meanwhile. -/
structure Leader.GoesOn (l m : Leader) : Prop where
  site : m.site = l.site
  guard : m.guard = l.guard
  request : m.request = l.request
  policy : m.policy = l.policy

theorem Leader.GoesOn.trans {l m o : Leader} (h : l.GoesOn m) (h' : m.GoesOn o) :
    l.GoesOn o :=
  ⟨h'.site.trans h.site, h'.guard.trans h.guard, h'.request.trans h.request,
    h'.policy.trans h.policy⟩

namespace System

variable {s t u : System σ} {e : Event} {events more : List Event} {p : Policy}

-- =============================================================== the clock

/-- The time at the end of a run is a matter of its events, exchanges apart. -/
theorem clock_run (h : s.run B events = some u) :
    (u.wall, u.elapsed) = (unexchanged events).foldl tick (s.wall, s.elapsed) := by
  induction events generalizing s with
  | nil =>
      cases h
      rfl
  | cons e events ih =>
      obtain ⟨t, ht, hrest⟩ := run_cons h
      rw [ih hrest, (step_deed ht).tick]
      cases e with
      | setPolicy site policy => rfl
      | _ => rfl

-- ============================================================== what stays

theorem Try.policy? {caller : CallerId} {site : Nat} {r : Prepared} {policy : Policy}
    {joined : Nat} (h : Try B s caller site r policy joined t) (n : Nat) :
    t.policy? n = s.policy? n := by
  cases h with
  | answered x st m found => rfl
  | followed id st m m' missed taken => rfl
  | led u st m m' missed there free =>
      exact policy?_updateFlights s site (fun u => (u.join r.fingerprint.entryKey).2.2) n

/-- The policies in force stay unless one is exchanged. -/
theorem Deed.policy? (h : Deed B s e t) (other : e.isExchange = false) (n : Nat) :
    t.policy? n = s.policy? n := by
  cases h with
  | attempted site caller r i key t there keyed attempt => exact attempt.policy? n
  | retried w t waits isOver more attempt => exact attempt.policy? n
  | ended e l how st m close => exact policy?_updateFlights s l.site (·.finish l.guard how) n
  | policySet site policy => cases other
  | refused | passed | called | passerAnswered | passerLate | settled | exhausted
  | left | elapsed | advanced | swept => rfl

/-- An exchange puts the policy in force. -/
theorem policy?_setPolicy {site : Nat} {p q : Policy} (h : s.policy? site = some p)
    (ht : s.step B (.setPolicy site q) = some t) : t.policy? site = some q := by
  cases ht
  unfold policy? at h ⊢
  obtain ⟨i, hi, -⟩ := Option.map_eq_some_iff.mp h
  rw [List.getElem?_modify, hi]
  simp

/-- A leader goes on as the one that it is, until it ends its flight. -/
theorem Coherent.leader_goesOn (h : s.Coherent) (hdeed : Deed B s e t) {l : Leader}
    (hl : l ∈ s.leaders) :
    (∃ m ∈ t.leaders, l.GoesOn m)
      ∨ ∃ how st m, Close B s e l how st m ∧ t.outcome? l.site l.guard.id = some how := by
  rcases h.leader_stays hdeed.shift hl with
    hstay | ⟨-, c, hcalls⟩ | ⟨how, m, hclose, hend⟩
  · exact .inl ⟨l, hstay, rfl, rfl, rfl, rfl⟩
  · exact .inl ⟨_, hcalls, rfl, rfl, rfl, rfl⟩
  · exact .inr ⟨how, t.store, m, hclose, hend⟩

-- =============================================================== blindness

/-- The system under one policy in force everywhere. -/
def under (s : System σ) (p : Policy) : System σ :=
  { s with instances := s.instances.map fun i => { i with policy := p } }

section Blind

variable (s : System σ) (p : Policy)

theorem under_eq_view : s.under p = s.view (fun _ => false) fun _ => p := by
  unfold under view
  simp only [Bool.not_false, List.filter_true]

/-- An exchange changes nothing but the policies in force. -/
theorem exchange_under (site : Nat) (policy : Policy) :
    ((s.step B (.setPolicy site policy)).map (·.under p)) = some (s.under p) := by
  have hinstances : (s.instances.modify site fun i => { i with policy := policy }).map
      (fun i => { i with policy := p }) = s.instances.map fun i => { i with policy := p } := by
    refine List.ext_getElem? fun n => ?_
    rw [List.getElem?_map, List.getElem?_map, List.getElem?_modify]
    cases s.instances[n]? with
    | none => rfl
    | some i => by_cases hn : site = n <;> simp [hn]
  exact congrArg (fun is => some { s with instances := is }) hinstances

/-- Only an arrival reads the policies in force. -/
theorem step_under (other : e.arrival? = none) :
    ((s.under p).step B e).map (·.under p) = (s.step B e).map (·.under p) := by
  simp only [under_eq_view]
  exact step_view s (f := fun _ => p) (fun _ => rfl) (.inl other)
    fun _ _ => rfl

end Blind

/-- Systems that are alike but for the policies in force have the same
flights. -/
theorem flights_of_under (alike : s.under p = t.under p) :
    s.store = t.store ∧ (∀ site, s.slots site = t.slots site)
      ∧ ∀ site id, s.outcome? site id = t.outcome? site id := by
  have htable : ∀ site, s.table? site = t.table? site := by
    intro site
    rw [under_eq_view, under_eq_view] at alike
    rw [← table?_view _ _ s, alike, table?_view]
  have hstore : (s.under p).store = (t.under p).store := by rw [alike]
  exact ⟨hstore, fun site => slots_congr (htable site),
    fun site => outcome?_congr (htable site)⟩

/-- How an event ends a flight is not a matter of the policies in force. -/
theorem Close.under {l : Leader} {how : FlightEnd Outcome} {st : σ} {m : Metrics}
    (h : Close B s e l how st m) (p : Policy) : Close B (s.under p) e l how st m := by
  rw [under_eq_view]
  exact h.view _ _

/-- Systems alike but for the policies in force stay so, until a request
comes, along runs that differ in exchanges only. -/
theorem run_unexchanged (alike : s.under p = t.under p)
    (still : ∀ e ∈ events, e.arrival? = none) (hu : s.run B events = some u) :
    ∃ v, t.run B (unexchanged events) = some v ∧ u.under p = v.under p := by
  induction events generalizing s t with
  | nil =>
      cases hu
      exact ⟨t, rfl, alike⟩
  | cons e events ih =>
      obtain ⟨s', hs', hrest⟩ := run_cons hu
      have hstill : ∀ f ∈ events, f.arrival? = none := fun f hf =>
        still f (List.mem_cons_of_mem _ hf)
      have hview : (s.step B e).map (·.under p) = some (s'.under p) := by rw [hs']; rfl
      cases hexchange : e.isExchange with
      | true =>
          -- the second run stays where it is
          have hsame : s'.under p = s.under p := by
            cases e with
            | setPolicy site policy =>
                rw [exchange_under] at hview
                exact (Option.some.inj hview).symm
            | _ => cases hexchange
          unfold unexchanged
          rw [List.filter_cons_of_neg (by simp [hexchange])]
          exact ih (hsame.trans alike) hstill hrest
      | false =>
          -- both runs take the step
          have hother := still e (List.mem_cons_self ..)
          rw [← step_under s p hother, alike, step_under t p hother] at hview
          obtain ⟨t', ht', halike⟩ := Option.map_eq_some_iff.mp hview
          obtain ⟨v, hv, hend⟩ := ih halike.symm hstill hrest
          refine ⟨v, ?_, hend⟩
          unfold unexchanged
          rw [List.filter_cons_of_pos (by simp [hexchange])]
          show (t.step B e).bind _ = some v
          rw [ht']
          exact hv

/-- Runs that differ in exchanges only have the same arrivals. -/
theorem arrivals_unexchanged (events : List Event) :
    (unexchanged events).filterMap Event.arrival? = events.filterMap Event.arrival? := by
  unfold unexchanged
  rw [List.filterMap_filter]
  refine List.filterMap_congr fun e _ => ?_
  cases e <;> rfl

theorem numbered_unexchanged {past more' : List Event} (hn : Numbered (past ++ e :: more))
    (hsame : unexchanged more' = unexchanged more) : Numbered (past ++ e :: more') := by
  have harrivals : more'.filterMap Event.arrival? = more.filterMap Event.arrival? := by
    rw [← arrivals_unexchanged more', hsame, arrivals_unexchanged]
  unfold Numbered at hn ⊢
  rw [List.filterMap_append, List.filterMap_cons] at hn ⊢
  rw [harrivals]
  exact hn

/-- Two runs from one system that differ in exchanges only, and in which no
other request comes, are alike but for the policies in force. -/
theorem run_alike {more' : List Event} {u' : System σ}
    (hsame : unexchanged more' = unexchanged more)
    (still : ∀ e ∈ more, e.arrival? = none) (hu : s.run B (e :: more) = some u)
    (hu' : s.run B (e :: more') = some u') : u.under p = u'.under p := by
  have hstill' : ∀ e ∈ more', e.arrival? = none := by
    rw [← List.filterMap_eq_nil_iff, ← arrivals_unexchanged, hsame, arrivals_unexchanged,
      List.filterMap_eq_nil_iff]
    exact still
  obtain ⟨t, ht, hrest⟩ := run_cons hu
  obtain ⟨t', ht', hrest'⟩ := run_cons hu'
  rw [ht] at ht'
  cases ht'
  obtain ⟨v, hv, hview⟩ := run_unexchanged (p := p) rfl still hrest
  obtain ⟨v', hv', hview'⟩ := run_unexchanged (p := p) rfl hstill' hrest'
  rw [hsame, hv] at hv'
  cases hv'
  rw [hview, hview']

end System

end OnceProxy.Proxy
