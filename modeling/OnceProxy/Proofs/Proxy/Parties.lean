/-
Who is at work after a step, and what a step puts on record.

Over any backend: whoever is at work after a step was so before, or the event
put them to work, a caller by looking up its request (`Line.mem_waiters`), a
leader by leading for one (`Deed.mem_leaders`), a caller without key by
arriving (`Deed.mem_passers`). A call is made when a request without key
arrives or a leader runs for the first time, and at no other time
(`Deed.sends`).
-/
import OnceProxy.Proofs.Proxy.Waiting

namespace OnceProxy.Proxy.System

open Http Origin Store

variable {σ : Type} {B : Backend σ} {s b t : System σ} {e : Event}
  {site : Nat} {caller : CallerId} {r : Prepared} {policy : Policy}
  {joined : Nat}

-- ============================================================== attempts

/-- The policy that an attempt is made under: the one in force where the
request arrives, or the one that a caller carries who starts over. -/
def mandate? (s : System σ) : Event → Option Policy
  | .arrive site _ _ => s.policy? site
  | .wake caller => (s.waiters.find? (·.caller = caller)).map (·.policy)
  | _ => none

/-- A step that looks a request up is an attempt under that policy; a caller
who starts over does not wait any more. -/
theorem step_attempt (ha : s.attempt? e = some (site, caller, r))
    (ht : s.step B e = some t) :
    ∃ policy joined b, s.mandate? e = some policy
      ∧ (b = s ∨ b = s.dropWaiter caller)
      ∧ t = b.attempt B caller site r policy joined
      ∧ Try B b caller site r policy joined t := by
  rcases attempt?_spec ha with ⟨q, i, key, rfl, hi, hkey, rfl⟩
    | ⟨w, rfl, hw, hover, hmore, rfl, rfl, rfl⟩
  · have harrive : s.arrive B site caller q = some t := ht
    unfold arrive at harrive
    rw [hi] at harrive
    simp only [Option.bind_eq_bind, Option.bind_some, hkey] at harrive
    obtain rfl := Option.some.inj harrive
    exact ⟨i.policy, 0, s, policy?_of_instance hi, .inl rfl, rfl,
      attempt_try hi caller _ _ _⟩
  · obtain ⟨table, htable, hend⟩ := Option.bind_eq_some_iff.mp hover
    obtain ⟨i, hi, rfl⟩ := Option.map_eq_some_iff.mp htable
    have hwake : s.wake B w.caller = some t := ht
    unfold wake at hwake
    simp only [hw, hi, hend, Option.bind_eq_bind, Option.bind_some, if_pos hmore]
      at hwake
    obtain rfl := Option.some.inj hwake
    refine ⟨w.policy, w.joined, s.dropWaiter w.caller, ?_, .inr rfl, rfl,
      attempt_try (s := s.dropWaiter w.caller) hi w.caller _ _ _⟩
    show (s.waiters.find? _).map _ = _
    rw [hw]
    rfl

/-- Whoever is woken has waited, and is given the outcome of its flight, or
makes another attempt, or gives up. -/
theorem Deed.wake_cases (h : Deed B s (.wake caller) t) :
    ∃ w, w.caller = caller
      ∧ s.waiters.find? (·.caller = w.caller) = some w
      ∧ ((∃ outcome, s.outcome? w.site w.flight = some (.completed outcome)
          ∧ t = (s.dropWaiter w.caller).reply w.caller
            (settle outcome w.request.fingerprint))
        ∨ (s.outcome? w.site w.flight = some .aborted
          ∧ w.joined < maxLeadershipAttempts
          ∧ Try B (s.dropWaiter w.caller) w.caller w.site w.request w.policy
            w.joined t)
        ∨ (s.outcome? w.site w.flight = some .aborted
          ∧ maxLeadershipAttempts ≤ w.joined
          ∧ t = (s.dropWaiter w.caller).reply w.caller
            (.error (.originUnavailable
              (.leadersAborted maxLeadershipAttempts))))) := by
  generalize he : Event.wake caller = e at h
  cases h with
  | settled w outcome waits isOver =>
      exact ⟨w, (Event.wake.inj he).symm, waits,
        .inl ⟨outcome, isOver, rfl⟩⟩
  | retried w t waits isOver more attempt =>
      exact ⟨w, (Event.wake.inj he).symm, waits,
        .inr (.inl ⟨isOver, more, attempt⟩)⟩
  | exhausted w waits isOver noMore =>
      exact ⟨w, (Event.wake.inj he).symm, waits,
        .inr (.inr ⟨isOver, noMore, rfl⟩)⟩
  | ended e l how st m close => cases close <;> cases he
  | _ => cases he

-- =============================================================== leaders

/-- An attempt appoints a leader for its request, or nobody. -/
theorem Try.mem_leaders (h : Try B b caller site r policy joined t)
    {l : Leader} (hl : l ∈ t.leaders) :
    l ∈ b.leaders ∨ l.site = site ∧ l.request = r ∧ l.waiting = none := by
  cases h with
  | answered x st m found => exact .inl hl
  | followed id st m m' missed taken => exact .inl hl
  | led u st m m' missed there free =>
      rcases List.mem_append.mp hl with hl' | hl'
      · exact .inl hl'
      · obtain rfl := List.mem_singleton.mp hl'
        exact .inr ⟨rfl, rfl, rfl⟩

/-- Who leads after a step led before, or was just appointed, or has just
started its call. -/
theorem Deed.mem_leaders (h : Deed B s e t) (hs : s.Coherent) {l : Leader}
    (hl : l ∈ t.leaders) :
    l ∈ s.leaders
      ∨ l.waiting = none
        ∧ (∃ caller, s.attempt? e = some (l.site, caller, l.request))
      ∨ ∃ m ∈ s.leaders, m.waiting = none ∧ e = .lead m.site m.guard.id
        ∧ l = { m with
            waiting := some
              ⟨s.calls.length, s.elapsed + m.policy.originTimeout⟩ }
        ∧ t.calls = s.calls ++ [m.request.outbound m.policy s.now] := by
  cases h with
  | attempted site caller r i key t there keyed attempt =>
      rcases attempt.mem_leaders hl with hold | ⟨rfl, hreq, hidle⟩
      · exact .inl hold
      · rw [hreq]
        exact .inr (.inl ⟨hidle, caller, attempt?_arrive there keyed _⟩)
  | retried o t waits isOver more attempt =>
      rcases attempt.mem_leaders hl with hold | ⟨hsite, hreq, hidle⟩
      · exact .inl hold
      · rw [hsite, hreq]
        exact .inr (.inl ⟨hidle, o.caller, attempt?_wake waits isOver more⟩)
  | called o st m leads idle look =>
      obtain ⟨q, hq, rfl⟩ := List.mem_map.mp hl
      split
      · next hsame =>
        rw [Bool.and_eq_true, decide_eq_true_eq, decide_eq_true_eq] at hsame
        have ho := List.mem_of_find?_eq_some leads
        obtain rfl := hs.single q hq o ho hsame.1 hsame.2
        exact .inr (.inr ⟨q, hq, idle, rfl, rfl, rfl⟩)
      · exact .inl hq
  | ended e o how st m close => exact .inl (List.mem_of_mem_filter hl)
  | refused | passed | passerAnswered | passerLate | settled | exhausted
  | left | elapsed | advanced | policySet | swept => exact .inl hl

-- =============================================================== passers

/-- Who waits without key after a step waited before, or arrived just now;
then its call is the last of all, and no leader has moved. -/
theorem Deed.mem_passers (h : Deed B s e t) {p : Passer}
    (hp : p ∈ t.passers) :
    p ∈ s.passers ∨ ∃ site r i, e = .arrive site p.caller r
      ∧ s.instances[site]? = some i
      ∧ IdempotencyKey.ofRequest r.method r.key i.policy.requireKey = .ok none
      ∧ p.policy = i.policy ∧ p.waiting.call = s.calls.length
      ∧ t.calls.length = s.calls.length + 1 ∧ t.leaders = s.leaders
      ∧ t.passers = s.passers ++ [p] := by
  cases h with
  | passed site caller r i there keyless =>
      rcases List.mem_append.mp hp with hp' | hp'
      · exact .inl hp'
      · obtain rfl := List.mem_singleton.mp hp'
        exact .inr ⟨site, r, i, rfl, there, keyless, rfl, rfl, by simp, rfl,
          rfl⟩
  | attempted site caller r i key t there keyed attempt =>
      cases attempt <;> exact .inl hp
  | retried w t waits isOver more attempt =>
      cases attempt <;> exact .inl hp
  | passerAnswered | passerLate | left =>
      exact .inl (List.mem_of_mem_filter hp)
  | refused | called | ended | settled | exhausted | elapsed | advanced
  | policySet | swept => exact .inl hp

-- ================================================================= calls

/-- A call is made when a request without key arrives, or when a leader runs
for the first time; a step makes one call at most. -/
theorem Deed.sends (h : Deed B s e t) :
    t.calls = s.calls
      ∨ (∃ site caller r i, e = .arrive site caller r
        ∧ s.instances[site]? = some i
        ∧ IdempotencyKey.ofRequest r.method r.key i.policy.requireKey
          = .ok none
        ∧ t.calls = s.calls ++ [r.outbound i.policy s.now])
      ∨ ∃ l, s.findLeader l.site l.guard.id = some l ∧ l.waiting = none
        ∧ e = .lead l.site l.guard.id
        ∧ t.calls = s.calls ++ [l.request.outbound l.policy s.now] := by
  cases h with
  | passed site caller r i there keyless =>
      exact .inr (.inl ⟨site, caller, r, i, rfl, there, keyless, rfl⟩)
  | called l st m leads idle look =>
      exact .inr (.inr ⟨l, leads, idle, rfl, rfl⟩)
  | attempted site caller r i key t there keyed attempt =>
      exact .inl (by cases attempt <;> rfl)
  | retried w t waits isOver more attempt =>
      exact .inl (by cases attempt <;> rfl)
  | refused | ended | passerAnswered | passerLate | settled | exhausted
  | left | elapsed | advanced | policySet | swept => exact .inl rfl

/-- The call that a step makes is one of the two. -/
theorem Deed.made (h : Deed B s e t) {o : Outbound}
    (hcalls : t.calls = s.calls ++ [o]) :
    (∃ site caller r i, e = .arrive site caller r
        ∧ s.instances[site]? = some i
        ∧ IdempotencyKey.ofRequest r.method r.key i.policy.requireKey
          = .ok none
        ∧ o = r.outbound i.policy s.now)
      ∨ ∃ l, s.findLeader l.site l.guard.id = some l ∧ l.waiting = none
        ∧ e = .lead l.site l.guard.id
        ∧ o = l.request.outbound l.policy s.now := by
  have hlast : ∀ {o'}, t.calls = s.calls ++ [o'] → o = o' := fun h =>
    List.singleton_inj.mp (List.append_cancel_left (hcalls.symm.trans h))
  rcases h.sends with
    hsame | ⟨site, caller, r, i, hevent, there, keyless, hnew⟩
    | ⟨l, leads, idle, hevent, hnew⟩
  · exact absurd (hcalls.symm.trans hsame) (by simp)
  · exact .inl ⟨site, caller, r, i, hevent, there, keyless, hlast hnew⟩
  · exact .inr ⟨l, leads, idle, hevent, hlast hnew⟩

/-- Calls stay on record. -/
theorem Deed.calls (h : Deed B s e t) : s.calls <+: t.calls := by
  rcases h.sends with
    hsame | ⟨site, caller, r, i, -, -, -, hlast⟩ | ⟨l, -, -, -, hlast⟩
  · exact hsame ▸ List.prefix_rfl
  · exact hlast ▸ List.prefix_append _ _
  · exact hlast ▸ List.prefix_append _ _

/-- One of the events, taken from `s`, makes the call, which is then the last
on record. -/
def MadeIn (B : Backend σ) (s : System σ) (events : List Event) (n : CallId)
    (o : Outbound) : Prop :=
  ∃ past e rest v w, events = past ++ e :: rest ∧ s.run B past = some v
    ∧ v.step B e = some w ∧ v.calls.length = n ∧ w.calls = v.calls ++ [o]

theorem MadeIn.mono {events : List Event} {n : CallId} {o : Outbound}
    (h : MadeIn B s events n o) (e : Event) :
    MadeIn B s (events ++ [e]) n o := by
  obtain ⟨past, e', rest, v, w, rfl, hrest⟩ := h
  exact ⟨past, e', rest ++ [e], v, w, by simp, hrest⟩

/-- Every call that a run puts on record is made by one of its events. -/
theorem madeIn_run {events : List Event} {u : System σ}
    (hr : s.run B events = some u) {n : CallId} {o : Outbound}
    (later : s.calls.length ≤ n) (ho : u.calls[n]? = some o) :
    MadeIn B s events n o := by
  refine run_induction (P := fun events u => u.calls[n]? = some o →
    MadeIn B s events n o) hr (fun h => ?_) (fun past e rest v w _ hv hpast
    hstep h => ?_) ho
  · exact absurd (List.getElem?_eq_some_iff.mp h).1 (Nat.not_lt.mpr later)
  · -- the step makes one call at most, and that is the last on record
    have hlast : ∀ o', w.calls = v.calls ++ [o'] →
        MadeIn B s (past ++ [e]) n o := by
      intro o' hcalls
      rw [hcalls] at h
      rcases Nat.lt_trichotomy n v.calls.length with hlt | heq | hgt
      · rw [List.getElem?_append_left hlt] at h
        exact (hpast h).mono e
      · rw [heq, List.getElem?_concat_length] at h
        cases h
        exact ⟨past, e, [], v, w, rfl, hv, hstep, heq.symm, hcalls⟩
      · have hlen := (List.getElem?_eq_some_iff.mp h).1
        rw [List.length_append, List.length_singleton] at hlen
        omega
    rcases (step_deed hstep).sends with
      hsame | ⟨site, caller, r, i, -, -, -, hcalls⟩ | ⟨l, -, -, -, hcalls⟩
    · rw [hsame] at h
      exact (hpast h).mono e
    · exact hlast _ hcalls
    · exact hlast _ hcalls

-- ============================================================== the clock

/-- The wall clock and the time since the start, moved on by an event. -/
def tick (c : Int × Nat) : Event → Int × Nat
  | .advance ms => (c.1 + ms, c.2)
  | .elapse ms => (c.1, c.2 + ms)
  | _ => c

/-- Nothing else moves the clock. -/
theorem Deed.tick (h : Deed B s e t) :
    (t.wall, t.elapsed) = tick (s.wall, s.elapsed) e := by
  cases h with
  | attempted site caller r i key t there keyed attempt =>
      cases attempt <;> rfl
  | retried x t waits isOver more attempt => cases attempt <;> rfl
  | ended e l how st m close => cases close <;> rfl
  | refused | passed | called | passerAnswered | passerLate | settled
  | exhausted | left | elapsed | advanced | policySet | swept => rfl

end OnceProxy.Proxy.System
