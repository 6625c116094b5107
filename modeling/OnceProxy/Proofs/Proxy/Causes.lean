/-
Which request a call is made for.

The origin is called in two kinds of step: a request without key arrives, or
a leader has its first run, and leaders are appointed by the attempts of
callers. So every call has its cause, a request that came in (`Causes`,
`exists_causes`), and it is the call of that request, under the policy that
the request came under and at the instant of the call (`Causes.call`).
-/
import OnceProxy.Proofs.Proxy.Calls
import OnceProxy.Proofs.Proxy.OnePolicy

namespace OnceProxy.Proxy

open Origin Store

theorem Incoming.Prepares.call? {q : Incoming} {r : Prepared}
    (h : q.Prepares r) (p : Policy) (now : UInt64) :
    q.call? p now = some (r.outbound p now) := by
  obtain ⟨key, hkey, rfl⟩ := h
  unfold Incoming.call?
  rw [hkey.ofRequest]

namespace System

variable {σ : Type} {B : Backend σ} {s t u v w s₀ : System σ} {e : Event}
  {events past : List Event} {site : Nat} {caller : CallerId} {q : Incoming}
  {r : Prepared} {p : Policy} {now : UInt64} {l : Leader} {o : Outbound}

-- ================================================================ causes

/-- A step in which the origin may be called for the caller: its request
arrives, or a leader that an attempt of the caller has appointed runs. -/
inductive SendsFor (B : Backend σ) (s : System σ) (past : List Event)
    (v : System σ) (caller : CallerId) : Event → Prop where
  | arrival (site : Nat) (q : Incoming) :
      SendsFor B s past v caller (.arrive site caller q)
  | leader (site : Nat) (flight : FlightId) (l : Leader)
      (leads : v.findLeader site flight = some l)
      (led : LeadsFor B s past caller l) :
      SendsFor B s past v caller (.lead site flight)

/-- In a run from `s₀` the request comes in under the policy, and a step that
is taken for it, at the instant, makes the call. -/
inductive Causes (B : Backend σ) (s₀ : System σ) (q : Incoming) (p : Policy)
    (now : UInt64) (o : Outbound) : Prop where
  | intro {past more front : List Event} {e : Event} {site : Nat}
      {caller : CallerId} {s v w : System σ}
      (numbered : Numbered (past ++ .arrive site caller q :: more))
      (before : s₀.run B past = some s) (inForce : s.policy? site = some p)
      (split : .arrive site caller q :: more = front ++ [e])
      (reached : s.run B front = some v)
      (sends : SendsFor B s front v caller e) (step : v.step B e = some w)
      (called : w.calls = v.calls ++ [o]) (instant : v.now = now)

/-- What is called is the call of the request. -/
theorem Causes.call {wall : Int} {store : σ} {policies : List Policy}
    (h : Causes B (start wall store policies) q p now o) :
    q.call? p now = some o := by
  obtain ⟨numbered, before, inForce, split, reached, sends, step, called, rfl⟩ := h
  have hsilent : ∀ v : System σ, v.calls ≠ v.calls ++ [o] := by simp
  cases sends with
  | arrival n q' =>
      obtain ⟨rfl, hp⟩ := own_arrival numbered inForce reached split
      rcases (step_deed step).made called with
        ⟨site, caller, r, i, hevent, there, keyless, rfl⟩ | ⟨l, -, -, hevent, -⟩
      · cases hevent
        rw [policy?_of_instance there] at hp
        obtain rfl := Option.some.inj hp
        unfold Incoming.call?
        rw [keyless]
      · cases hevent
  | leader n flight l leads led =>
      have hgoes := goesBy_run (staffed_run numbered.of_append before) numbered
        inForce split reached step
      obtain ⟨hprepares, hsame | ⟨hcalls, -⟩⟩ := hgoes.calls n flight l rfl leads led
      · rw [hsame] at called
        exact absurd called (hsilent _)
      · rw [hcalls] at called
        obtain rfl := List.singleton_inj.mp (List.append_cancel_left called)
        exact Incoming.Prepares.call? hprepares p _

-- ========================================================== appointments

theorem LeadsFor.mono (h : LeadsFor B s events caller l) (e : Event) :
    LeadsFor B s (events ++ [e]) caller l := by
  obtain ⟨past, e', rest, v, rfl, hv, happoints⟩ := h
  exact ⟨past, e', rest ++ [e], v, by simp, hv, happoints⟩

/-- In the course of the events a request came in, and since then an attempt
of its caller has appointed the leader. -/
def Appointed (B : Backend σ) (s₀ : System σ) (events : List Event)
    (l : Leader) : Prop :=
  ∃ past more site caller q s, events = past ++ .arrive site caller q :: more
    ∧ s₀.run B past = some s
    ∧ LeadsFor B s (.arrive site caller q :: more) caller l

theorem Appointed.mono (h : Appointed B s₀ events l) (e : Event) :
    Appointed B s₀ (events ++ [e]) l := by
  obtain ⟨past, more, site, caller, q, s, rfl, hs, hled⟩ := h
  exact ⟨past, more ++ [e], site, caller, q, s, by simp, hs, hled.mono e⟩

/-- The leader that an attempt appoints is at the end of the line. -/
theorem Try.last_leader {joined : Nat}
    (h : Try B s caller site r p joined t) (hl : l ∈ t.leaders) :
    l ∈ s.leaders ∨ t.leaders = s.leaders ++ [l] ∧ l.site = site := by
  cases h with
  | answered x st m found => exact .inl hl
  | followed id st m m' missed taken => exact .inl hl
  | led u st m m' missed there free =>
      rcases List.mem_append.mp hl with hold | hnew
      · exact .inl hold
      · obtain rfl := List.mem_singleton.mp hnew
        exact .inr ⟨rfl, rfl⟩

/-- Who leads after a step led before, perhaps without a call, or is
appointed in it. -/
theorem step_appoints (hv : v.Coherent) (hw : v.step B e = some w)
    (hl : l ∈ w.leaders) :
    (∃ m ∈ v.leaders, m.site = l.site ∧ m.guard = l.guard)
      ∨ ∃ caller, Appoints B v e caller l.site l.guard := by
  cases ha : v.attempt? e with
  | none =>
      obtain ⟨m, hm, hsite, hguard, -⟩ := ((step_deed hw).calm hv ha).2 l hl
      exact .inl ⟨m, hm, hsite.symm, hguard.symm⟩
  | some a =>
      obtain ⟨site, caller, r⟩ := a
      obtain ⟨policy, joined, b, -, hb, -, htry⟩ := step_attempt ha hw
      have hbase : b.leaders = v.leaders := by
        rcases hb with rfl | rfl <;> rfl
      rcases htry.last_leader hl with hold | ⟨hlast, rfl⟩
      · rw [hbase] at hold
        exact .inl ⟨l, hold, rfl, rfl⟩
      · rw [hbase] at hlast
        exact .inr ⟨caller, ⟨r, ha⟩, w, l, hw, hlast, rfl, rfl⟩

/-- Who is appointed is so for a request that has just come in, or that has
been waiting and so came in before. -/
theorem Appoints.appointed (h : Appoints B v e caller l.site l.guard)
    (hs : v.Staffed past) (hv : s₀.run B past = some v) :
    Appointed B s₀ (past ++ [e]) l := by
  obtain ⟨⟨r, ha⟩, -⟩ := id h
  rcases attempt?_spec ha with ⟨q, i, key, rfl, -, -, -⟩
    | ⟨x, rfl, hx, -, -, -, hcaller, -⟩
  · exact ⟨past, [], l.site, caller, q, v, rfl, hv, [], _, [], v, rfl, rfl, h⟩
  · obtain ⟨n, q, key, hin, -⟩ := hs.traced.waiters x (List.mem_of_find?_eq_some hx)
    rw [hcaller] at hin
    obtain ⟨front, more, rfl⟩ := List.append_of_mem hin
    rw [run_append] at hv
    obtain ⟨s, hs, hrest⟩ := Option.bind_eq_some_iff.mp hv
    exact ⟨front, more ++ [_], n, caller, q, s, by simp, hs,
      _, _, [], v, rfl, hrest, h⟩

section Runs

variable {wall : Int} {store : σ} {policies : List Policy}

/-- Every leader has been appointed for a request that came in. -/
theorem appointed_run (hn : Numbered events)
    (hr : (start wall store policies).run B events = some u) :
    ∀ l ∈ u.leaders, Appointed B (start wall store policies) events l := by
  refine run_induction (P := fun events u =>
    ∀ l ∈ u.leaders, Appointed B (start wall store policies) events l) hr ?_ ?_
  · intro l hl
    cases hl
  · intro past e rest v w hevents hv hpast hstep l hl
    rw [hevents] at hn
    have hstaffed := staffed_run hn.of_append hv
    rcases step_appoints hstaffed.coherent hstep hl with
      ⟨m, hm, hsite, hguard⟩ | ⟨caller, happoints⟩
    · obtain ⟨front, more, n, c, q, s, hsplit, hs, hled⟩ := (hpast m hm).mono e
      exact ⟨front, more, n, c, q, s, hsplit, hs, hled.congr hsite.symm hguard.symm⟩
    · exact happoints.appointed hstaffed hv

-- =============================================================== no other

/-- A request comes in where a policy is in force. -/
theorem exists_inForce (h : s.step B (.arrive site caller q) = some t) :
    ∃ p, s.policy? site = some p := by
  cases step_deed h with
  | refused site caller r i fault there bad => exact ⟨_, policy?_of_instance there⟩
  | passed site caller r i there keyless => exact ⟨_, policy?_of_instance there⟩
  | attempted site caller r i key t there keyed attempt =>
      exact ⟨_, policy?_of_instance there⟩
  | ended e l how st m close => cases close

/-- Every call on record has its cause. -/
theorem exists_causes (hn : Numbered events)
    (hr : (start wall store policies).run B events = some u) :
    ∀ o ∈ u.calls, ∃ q p now, Causes B (start wall store policies) q p now o := by
  intro o ho
  obtain ⟨n, hplace⟩ := List.mem_iff_getElem?.mp ho
  obtain ⟨past, e, rest, v, w, rfl, hv, hw, -, hcalls⟩ :=
    madeIn_run hr (Nat.zero_le n) hplace
  rw [← List.singleton_append, ← List.append_assoc] at hn
  have hnow := hn.of_append
  rcases (step_deed hw).made hcalls with
    ⟨site, caller, q, i, rfl, there, -, -⟩ | ⟨l, leads, -, rfl, -⟩
  · have hfirst : v.run B [] = some v := rfl
    exact ⟨q, i.policy, v.now, .intro hnow hv (policy?_of_instance there) rfl
      hfirst (.arrival site q) hw hcalls rfl⟩
  · obtain ⟨front, more, site, caller, q, s, rfl, hs, hled⟩ :=
      appointed_run hnow.of_append hv l (List.mem_of_find?_eq_some leads)
    rw [run_append, hs] at hv
    obtain ⟨t, ht, -⟩ := run_cons hv
    obtain ⟨p, hp⟩ := exists_inForce ht
    rw [List.append_assoc, List.cons_append] at hnow
    exact ⟨q, p, v.now, .intro hnow hs hp rfl hv (.leader _ _ l leads hled) hw
      hcalls rfl⟩

end Runs

/-- A request with a key that comes in first, and whose leader then runs,
gets its call. -/
theorem causes_first {key : IdempotencyKey} (wall : Int) (p : Policy)
    (hkey : q.HasKey key) :
    Causes MemoryStore.backend (start wall .empty [p]) q p
      (start wall MemoryStore.empty [p]).now
      ((q.prepare key).outbound p (start wall MemoryStore.empty [p]).now) := by
  have harrive : (start wall .empty [p]).step MemoryStore.backend (.arrive 0 0 q)
      = some ((start wall .empty [p]).attempt MemoryStore.backend 0 0
        (q.prepare key) p 0) := by
    show (start wall .empty [p]).arrive MemoryStore.backend 0 0 q = _
    unfold arrive
    simp only [start, List.map_cons, List.map_nil, List.getElem?_cons_zero,
      Option.bind_eq_bind, Option.bind_some, hkey.ofRequest]
    rfl
  have hbefore : (start wall .empty [p]).run MemoryStore.backend []
      = some (start wall .empty [p]) := rfl
  have happoints : Appoints MemoryStore.backend (start wall .empty [p])
      (.arrive 0 0 q) 0 0 ⟨(q.prepare key).fingerprint.entryKey, 0⟩ :=
    ⟨⟨q.prepare key, attempt?_arrive rfl (hkey.ofRequest _) 0⟩, _, _, harrive, rfl,
      rfl, rfl⟩
  have hnumbered : Numbered ([] ++ .arrive 0 0 q :: [.lead 0 0]) := by
    simp [Numbered, Event.arrival?, List.filterMap]
  exact .intro hnumbered hbefore rfl rfl (run_concat hbefore harrive)
    (.leader 0 0 ⟨0, ⟨_, 0⟩, q.prepare key, p, none⟩ rfl
      ⟨[], _, [], _, rfl, rfl, happoints⟩) rfl rfl rfl

end System

end OnceProxy.Proxy
