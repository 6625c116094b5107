/-
One policy for one request.

Policies are exchanged at any time and any number of times, and a request is
at work for long: it waits, starts over, and has leaders at work after its
caller has gone. It goes by the policy it came under (`GoesBy`), since whoever
works for it carries that one (`mandate_run`) and none of them asks for the
one in force.
-/
import OnceProxy.Proofs.Proxy.Exchanges
import OnceProxy.Proofs.Proxy.Mandates

namespace OnceProxy.Proxy.System

open Store

variable {σ : Type} {B : Backend σ} {s u v w : System σ} {e : Event}
  {events more : List Event} {p : Policy} {caller : CallerId} {q : Incoming}

/-- What a step does for the caller's request, it does under the policy `p`.
The leaders that work for the request are those that are `led`. -/
structure GoesBy (B : Backend σ) (led : Leader → Prop) (caller : CallerId) (q : Incoming)
    (p : Policy) (v : System σ) (e : Event) (w : System σ) : Prop where
  /-- Whether a key is required, and the call of a request without one. -/
  enters : ∀ site, e = .arrive site caller q →
    w = match IdempotencyKey.ofRequest q.method q.key p.requireKey with
      | .error fault => v.reply caller (.error (.invalidRequest (.key fault)))
      | .ok (some key) => v.attempt B caller site (q.prepare key) p 0
      | .ok none => { v with
          calls := v.calls ++ [q.outbound p v.now]
          passers := v.passers ++
            [⟨caller, p, ⟨v.calls.length, v.elapsed + p.originTimeout⟩⟩] }
  /-- Every attempt, with the look-up and the refreshing of what it finds. -/
  attempts : ∀ site r, v.attempt? e = some (site, caller, r) →
    q.Prepares r ∧ ∃ b joined, (b = v ∨ b = v.dropWaiter caller)
      ∧ w = b.attempt B caller site r p joined
  /-- What is sent to the origin, and how long it may take. -/
  calls : ∀ site flight l, e = .lead site flight → v.findLeader site flight = some l → led l →
    q.Prepares l.request ∧ (w.calls = v.calls
      ∨ w.calls = v.calls ++ [l.request.outbound p v.now]
        ∧ { l with waiting := some ⟨v.calls.length, v.elapsed + p.originTimeout⟩ } ∈ w.leaders)
  /-- What is made of the origin's response, and what is stored. -/
  answers : ∀ call response l, e = .answer call (.ok response) → v.leaderOf call = some l →
    led l → q.Prepares l.request ∧ match classify response.status p with
      | .error fault => w.store = v.store
          ∧ w.outcome? l.site l.guard.id = some (.completed (.error fault))
      | .ok () => w.store = (v.converse B (Cache.putIfAbsent l.guard.key
          (l.request.entryFor p response v.now))).2.store
  /-- What a call is taken for that took too long. -/
  overdue : ∀ call l, e = .timeout call → v.leaderOf call = some l → led l →
    w.outcome? l.site l.guard.id = some (.completed (.error (timeoutError p)))
  keyless : ∀ call g, e = .timeout call → v.leaderOf call = none →
    v.passerOf call = some g → g.caller = caller →
    w.replies = v.replies ++ [(caller, .error (timeoutError p))]

/-- What a conversation leaves in the store does not depend on what was
counted before it. -/
theorem store_converse_bump (s : System σ) (c : Counter) (d : Dialogue α) :
    ((s.bump c).converse B d).2.store = (s.converse B d).2.store :=
  (run_metrics B s.now d s.store (s.metrics.bump c) s.metrics).2

/-- What a leader makes of a response, and what it leaves in the store. -/
theorem resolve_ok {l : Leader} {response : Http.Response} {outcome : Outcome} {st : σ}
    {m : Metrics}
    (h : s.resolve B l (.ok response) = (outcome, { s with store := st, metrics := m })) :
    match classify response.status l.policy with
    | .error fault => st = s.store ∧ outcome = .error fault
    | .ok () => st = (s.converse B (Cache.putIfAbsent l.guard.key
        (l.request.entryFor l.policy response s.now))).2.store := by
  rw [resolve] at h
  cases hclass : classify response.status l.policy with
  | error fault =>
      simp only [hclass] at h
      obtain ⟨rfl, hs⟩ := Prod.mk.inj h
      exact ⟨(congrArg System.store hs).symm, rfl⟩
  | ok done =>
      simp only [hclass] at h
      have hstore := store_converse_bump (B := B) s
        (.originCalls (.status response.status.code))
        (Cache.putIfAbsent l.guard.key (l.request.entryFor l.policy response s.now))
      rw [show (s.bump (.originCalls (.status response.status.code))).now = s.now from rfl] at h
      show st = _
      rw [← hstore]
      split at h
      all_goals
        next heq =>
        rw [heq]
        exact (congrArg System.store (Prod.mk.inj h).2).symm

section Steps

variable (h : Mandate B s events caller q p v) (hw : v.step B e = some w)

include h hw

theorem Mandate.calls {site : Nat} {flight : FlightId} {l : Leader}
    (he : e = .lead site flight) (hl : v.findLeader site flight = some l)
    (hled : LeadsFor B s events caller l) :
    q.Prepares l.request ∧ (w.calls = v.calls
      ∨ w.calls = v.calls ++ [l.request.outbound p v.now]
        ∧ { l with waiting := some ⟨v.calls.length, v.elapsed + p.originTimeout⟩ }
          ∈ w.leaders) := by
  have hin := List.mem_of_find?_eq_some hl
  obtain ⟨rfl, hprepares⟩ := h.leaders l hin hled
  refine ⟨hprepares, ?_⟩
  subst he
  cases step_deed hw with
  | called o st m leads idle look =>
      rw [hl] at leads
      cases leads
      refine .inr ⟨rfl, List.mem_map.mpr ⟨l, hin, ?_⟩⟩
      rw [if_pos (by simp)]
  | ended e o how st m close => exact .inl rfl

theorem Mandate.answers (hv : v.Coherent) {call : CallId} {response : Http.Response}
    {l : Leader}
    (he : e = .answer call (.ok response)) (hl : v.leaderOf call = some l)
    (hled : LeadsFor B s events caller l) :
    q.Prepares l.request ∧ match classify response.status p with
      | .error fault => w.store = v.store
          ∧ w.outcome? l.site l.guard.id = some (.completed (.error fault))
      | .ok () => w.store = (v.converse B (Cache.putIfAbsent l.guard.key
          (l.request.entryFor p response v.now))).2.store := by
  have hin := List.mem_of_find?_eq_some hl
  obtain ⟨rfl, hprepares⟩ := h.leaders l hin hled
  refine ⟨hprepares, ?_⟩
  subst he
  cases step_deed hw with
  | ended e o how st m close =>
      cases close with
      | answered o c r outcome st m leads waits inTime result =>
          rw [hl] at leads
          cases leads
          have hmade := resolve_ok result
          cases hclass : classify response.status l.policy with
          | error fault =>
              rw [hclass] at hmade
              obtain ⟨rfl, rfl⟩ := hmade
              exact ⟨rfl, hv.outcome?_of_finish hin rfl⟩
          | ok done =>
              rw [hclass] at hmade
              exact hmade
  | passerAnswered m g answer waits keyless inTime =>
      rw [hl] at keyless
      cases keyless

theorem Mandate.overdue (hv : v.Coherent) {call : CallId} {l : Leader}
    (he : e = .timeout call)
    (hl : v.leaderOf call = some l) (hled : LeadsFor B s events caller l) :
    w.outcome? l.site l.guard.id = some (.completed (.error (timeoutError p))) := by
  have hin := List.mem_of_find?_eq_some hl
  obtain ⟨rfl, -⟩ := h.leaders l hin hled
  subst he
  cases step_deed hw with
  | ended e o how st m close =>
      cases close with
      | late o c leads waits isOverdue =>
          rw [hl] at leads
          cases leads
          exact hv.outcome?_of_finish hin rfl
  | passerLate m g waits keyless isOverdue =>
      rw [hl] at keyless
      cases keyless

theorem Mandate.keyless {call : CallId} {g : Passer} (he : e = .timeout call)
    (hnone : v.leaderOf call = none) (hg : v.passerOf call = some g)
    (hcaller : g.caller = caller) :
    w.replies = v.replies ++ [(caller, .error (timeoutError p))] := by
  obtain rfl := h.passers g (List.mem_of_find?_eq_some hg) hcaller
  subst he hcaller
  cases step_deed hw with
  | ended e o how st m close =>
      cases close with
      | late o c leads waits isOverdue =>
          rw [hnone] at leads
          cases leads
  | passerLate m o waits keyless isOverdue =>
      rw [hg] at waits
      cases waits
      rfl

theorem Mandate.goesBy (hv : v.Coherent)
    (own : ∀ n q', e = .arrive n caller q' → q' = q ∧ v.policy? n = some p) :
    GoesBy B (LeadsFor B s events caller) caller q p v e w where
  enters := by
    rintro site rfl
    obtain ⟨-, hp⟩ := own site q rfl
    obtain ⟨i, hi, rfl⟩ := Option.map_eq_some_iff.mp hp
    have harrive : v.arrive B site caller q = some w := hw
    rw [arrive, hi] at harrive
    simp only [Option.bind_eq_bind, Option.bind_some] at harrive
    cases hkey : IdempotencyKey.ofRequest q.method q.key i.policy.requireKey with
    | error fault =>
        rw [hkey] at harrive
        exact (Option.some.inj harrive).symm
    | ok key =>
        rw [hkey] at harrive
        cases key <;> exact (Option.some.inj harrive).symm
  attempts := by
    intro site r ha
    obtain ⟨policy, joined, b, hmandate, hb, hmade, -⟩ := step_attempt ha hw
    obtain ⟨rfl, hprepares⟩ := h.attempt own ha hmandate
    exact ⟨hprepares, b, joined, hb, hmade⟩
  calls := fun _ _ _ he hl hled => h.calls hw he hl hled
  answers := fun _ _ _ he hl hled => h.answers hw hv he hl hled
  overdue := fun _ _ he hl hled => h.overdue hw hv he hl hled
  keyless := fun _ _ he hnone hg hcaller => h.keyless hw he hnone hg hcaller

end Steps

/-- Every step from the arrival of the request on goes by the policy that was
in force then. -/
theorem goesBy_run {past front rest : List Event} {site : Nat} (hs : s.Staffed past)
    (hn : Numbered (past ++ .arrive site caller q :: more)) (hp : s.policy? site = some p)
    (hsplit : .arrive site caller q :: more = front ++ e :: rest)
    (hv : s.run B front = some v) (hw : v.step B e = some w) :
    GoesBy B (LeadsFor B s front caller) caller q p v e w := by
  have hfront : Mandate B s front caller q p v := by
    cases front with
    | nil =>
        cases hv
        exact mandate_nil hs hn.not_mem
    | cons first front =>
        obtain ⟨rfl, rfl⟩ := List.cons.inj hsplit
        have hlong : Numbered ((past ++ .arrive site caller q :: front) ++ e :: rest) := by
          simpa using hn
        exact mandate_run hs hlong.of_append hp hv
  refine hfront.goesBy hw (hs.coherent.run hv) ?_
  rintro n q' rfl
  exact own_arrival hn hp hv hsplit

/-- What leaders that work for the request in two such runs would do at the
same point of them is the same. -/
theorem leaders_alike {past more' : List Event} {u' : System σ} {site : Nat}
    (hs : s.Staffed past) (hn : Numbered (past ++ .arrive site caller q :: more))
    (hp : s.policy? site = some p) (hsame : unexchanged more' = unexchanged more)
    (hu : s.run B (.arrive site caller q :: more) = some u)
    (hu' : s.run B (.arrive site caller q :: more') = some u') {l l' : Leader}
    (hl : l ∈ u.leaders) (hled : LeadsFor B s (.arrive site caller q :: more) caller l)
    (hl' : l' ∈ u'.leaders)
    (hled' : LeadsFor B s (.arrive site caller q :: more') caller l') :
    l.request = l'.request ∧ l.policy = l'.policy ∧ u.now = u'.now := by
  obtain ⟨hpolicy, hprepares⟩ := (mandate_run hs hn hp hu).leaders l hl hled
  obtain ⟨hpolicy', hprepares'⟩ :=
    (mandate_run hs (numbered_unexchanged hn hsame) hp hu').leaders l' hl' hled'
  have hclock : (u.wall, u.elapsed) = (u'.wall, u'.elapsed) := by
    rw [clock_run hu, clock_run hu']
    show (unexchanged more).foldl _ _ = (unexchanged more').foldl _ _
    rw [hsame]
  exact ⟨hprepares.unique hprepares', hpolicy.trans hpolicy'.symm,
    now_congr (Prod.mk.inj hclock).1⟩

/-- One policy for one request. Take any run over any backend, with exchanges
of policies anywhere, and the arrival of a request in it. Every step of the
run goes, in what it does for this request, by the policy that was in force at
its arrival. In another run that differs in later exchanges only, at the same
point of it, a leader that works for the request sends the same, takes the
same response for the same, and would store the same entry; as long as no
other request comes, the two runs are alike in everything but the policies in
force. And an exchange changes no record of the store, no slot, and nothing
else but the policies in force. -/
theorem one_policy (B : Backend σ) (wall : Int) (store : σ) (policies : List Policy)
    {past more : List Event} {site : Nat}
    (hn : Numbered (past ++ .arrive site caller q :: more))
    (hs : (start wall store policies).run B past = some s)
    (hp : s.policy? site = some p)
    (hu : s.run B (.arrive site caller q :: more) = some u) :
    (∀ front e rest v w, .arrive site caller q :: more = front ++ e :: rest →
      s.run B front = some v → v.step B e = some w →
      GoesBy B (LeadsFor B s front caller) caller q p v e w)
    ∧ (∀ more' u', unexchanged more' = unexchanged more →
      s.run B (.arrive site caller q :: more') = some u' →
      (∀ l ∈ u.leaders, LeadsFor B s (.arrive site caller q :: more) caller l →
        ∀ l' ∈ u'.leaders, LeadsFor B s (.arrive site caller q :: more') caller l' →
        l.request.outbound l.policy u.now = l'.request.outbound l'.policy u'.now
        ∧ (∀ status, classify status l.policy = classify status l'.policy)
        ∧ ∀ response, l.request.entryFor l.policy response u.now
          = l'.request.entryFor l'.policy response u'.now)
      ∧ ((∀ e ∈ more, e.arrival? = none) → ∀ p, u.under p = u'.under p))
    ∧ ∀ (v : System σ) n policy w, v.step B (.setPolicy n policy) = some w →
      w.store = v.store ∧ (∀ m, w.slots m = v.slots m) ∧ ∀ p, w.under p = v.under p := by
  have hstaffed : s.Staffed past := staffed_run hn.of_append hs
  refine ⟨fun front e rest v w hsplit hv hw => goesBy_run hstaffed hn hp hsplit hv hw,
    fun more' u' hsame hu' => ⟨fun l hl hled l' hl' hled' => ?_,
      fun still p => run_alike hsame still hu hu'⟩, fun v n policy w hw => ⟨?_, fun m => ?_, ?_⟩⟩
  · obtain ⟨hrequest, hpolicy, hnow⟩ :=
      leaders_alike hstaffed hn hp hsame hu hu' hl hled hl' hled'
    rw [hrequest, hpolicy, hnow]
    exact ⟨rfl, fun _ => rfl, fun _ => rfl⟩
  · cases hw
    rfl
  · cases hw
    exact slots_congr (table?_setPolicy v n policy m)
  · intro p
    have hview := exchange_under (B := B) v p n policy
    rw [hw] at hview
    exact Option.some.inj hview

/-- A policy under which nothing is final and nothing may take long. -/
def hasty : Policy := { Sample.policy with originTimeout := 1, definitive := [] }

/-- The policy is exchanged between the arrival of a request and its call. -/
def exchanged : List Event := [.arrive 0 0 Sample.order, .setPolicy 0 hasty]

/-- The leader sends what the policy of the arrival has it send, and may wait
as long as that one lets it wait; the policy in force is the other one, and
nothing else differs from the run in which the policy stays. -/
theorem one_policy_exchanged : ∃ v w l,
    (start 0 .empty [Sample.policy]).run MemoryStore.backend exchanged = some v
    ∧ v.policy? 0 = some hasty
    ∧ v.step MemoryStore.backend (.lead 0 0) = some w
    ∧ w.calls = [(Sample.order.prepare Sample.orderKey).outbound Sample.policy v.now]
    ∧ l ∈ w.leaders ∧ l.waiting = some ⟨0, 10000⟩
    ∧ ∀ u, (start 0 .empty [Sample.policy]).run MemoryStore.backend
        [.arrive 0 0 Sample.order] = some u → v.under hasty = u.under hasty := by
  have hkey : Sample.order.HasKey Sample.orderKey := ⟨_, rfl, by decide +kernel⟩
  have harrived : ((start 0 .empty [Sample.policy]).run MemoryStore.backend
      [.arrive 0 0 Sample.order]).bind (fun t => t.leaders.head?.map fun l =>
        (t.leaders.length, l.site, l.guard.id, t.calls.length, t.elapsed, t.instances.length))
      = some (1, 0, 0, 0, 0, 1) := by decide +kernel
  have hcalled : ((start 0 .empty [Sample.policy]).run MemoryStore.backend
      (exchanged ++ [.lead 0 0])).map (·.calls.length) = some 1 := by decide +kernel
  obtain ⟨t, ht, hhead⟩ := Option.bind_eq_some_iff.mp harrived
  obtain ⟨l, hl, hview⟩ := Option.map_eq_some_iff.mp hhead
  simp only [Prod.mk.injEq] at hview
  obtain ⟨hone, hsite, hid, hnone, helapsed, hthere⟩ := hview
  obtain ⟨w, hw, hlength⟩ := Option.map_eq_some_iff.mp hcalled
  obtain ⟨v, hv, hlead⟩ := run_snoc hw
  have hfront : (start 0 .empty [Sample.policy]).run MemoryStore.backend
      ([.arrive 0 0 Sample.order] ++ [.setPolicy 0 hasty]) = some v := hv
  obtain ⟨t', ht', hset⟩ := run_snoc hfront
  rw [ht] at ht'
  cases ht'
  cases hset
  obtain ⟨x, hx⟩ := List.length_eq_one_iff.mp hone
  rw [hx] at hl
  cases hl
  obtain ⟨t', hstep, hdone⟩ := run_cons ht
  cases hdone
  have hled : LeadsFor MemoryStore.backend (start 0 .empty [Sample.policy]) exchanged 0 l := by
    refine ⟨[], _, _, _, rfl, rfl, ⟨Sample.order.prepare Sample.orderKey, ?_⟩,
      t, l, hstep, hx, rfl, rfl⟩
    rw [hsite]
    exact attempt?_arrive rfl (hkey.ofRequest _) 0
  have hn : Numbered ([] ++ .arrive 0 0 Sample.order :: [.setPolicy 0 hasty, .lead 0 0]) := by
    decide
  have hn' : Numbered ([] ++ .arrive 0 0 Sample.order :: [.setPolicy 0 hasty]) := by
    decide
  obtain ⟨hgoes, -, -⟩ := one_policy MemoryStore.backend 0 .empty [Sample.policy] hn
    (p := Sample.policy) rfl rfl hw
  obtain ⟨-, halike, -⟩ := one_policy MemoryStore.backend 0 .empty [Sample.policy] hn'
    (p := Sample.policy) rfl rfl hv
  have hfound : t.findLeader 0 0 = some l := by
    unfold findLeader
    rw [hx]
    simp [hsite, hid]
  obtain ⟨hprepares, hcalls⟩ :=
    (hgoes exchanged (.lead 0 0) [] _ w rfl hv hlead).calls 0 0 l rfl hfound hled
  have hrequest := hprepares.unique ⟨_, hkey, rfl⟩
  have hempty : t.calls = [] := List.length_eq_zero_iff.mp hnone
  rcases hcalls with hsame | ⟨hsent, hin⟩
  · rw [hsame, hempty] at hlength
    cases hlength
  · refine ⟨_, w, _, hv, ?_, hlead, ?_, hin, ?_, fun u hu => (halike [] u rfl hu).2
      (by simp [Event.arrival?]) _⟩
    · obtain ⟨i, hi⟩ := List.length_eq_one_iff.mp hthere
      unfold policy?
      rw [hi]
      rfl
    · rw [hsent, hrequest, hempty]
      rfl
    · rw [hempty, helapsed]
      rfl

end OnceProxy.Proxy.System
