/-
Mandates: who works for a request, and under which policy.

A request takes the policy in force when it arrives. It hands it to every
attempt that is made for it, and an attempt to the leader that it appoints;
nobody changes a policy once it has it. So everyone who works for a request
goes by one policy (`Mandate`), wherever the policies in force have gone
since.

A leader does not say for whom it leads. `LeadsFor` reads that off the run:
the caller's attempt appointed the leader of this flight. Numbers of flights
are not given out twice, so no later attempt appoints another one to it
(`Mandate.known`), and it is this that keeps the mandate of a leader whose
caller has long gone.
-/
import OnceProxy.Proofs.Proxy.Policies
import OnceProxy.Proofs.Proxy.Staff

namespace OnceProxy.Proxy

open Store

/-- The request under its key. -/
def Incoming.Prepares (q : Incoming) (r : Prepared) : Prop :=
  ∃ key, q.HasKey key ∧ r = q.prepare key

theorem Incoming.Prepares.unique {q : Incoming} {r r' : Prepared}
    (h : q.Prepares r) (h' : q.Prepares r') : r = r' := by
  obtain ⟨key, hkey, rfl⟩ := h
  obtain ⟨key', hkey', rfl⟩ := h'
  rw [hkey.unique hkey']

namespace System

variable {σ : Type} {B : Backend σ} {s t u v w b : System σ} {e : Event}
  {events : List Event} {site : Nat} {caller : CallerId} {r : Prepared}
  {policy p : Policy} {joined : Nat} {q : Incoming} {l : Leader}

-- ============================================================== attempts

/-- Who waits after an attempt waited before, or does so for it. -/
theorem Try.waiter (h : Try B b caller site r policy joined t) {x : Waiter}
    (hx : x ∈ t.waiters) :
    x ∈ b.waiters ∨ x.caller = caller ∧ x.request = r ∧ x.policy = policy := by
  cases h with
  | answered y st m found => exact .inl hx
  | followed id st m m' missed taken =>
      rcases List.mem_append.mp hx with hold | hnew
      · exact .inl hold
      · obtain rfl := List.mem_singleton.mp hnew
        exact .inr ⟨rfl, rfl, rfl⟩
  | led u st m m' missed there free =>
      rcases List.mem_append.mp hx with hold | hnew
      · exact .inl hold
      · obtain rfl := List.mem_singleton.mp hnew
        exact .inr ⟨rfl, rfl, rfl⟩

/-- The flight has been started at some time: it is in progress, or over. -/
def Known (s : System σ) (site : Nat) (guard : FlightGuard) : Prop :=
  (guard.key, guard.id) ∈ s.slots site ∨ ∃ how, s.outcome? site guard.id = some how

/-- Who leads after an attempt led before, or does so for it, in a flight
that is new. -/
theorem Try.leader (h : Try B b caller site r policy joined t) (hb : b.Coherent)
    (hl : l ∈ t.leaders) :
    l ∈ b.leaders
      ∨ l.request = r ∧ l.policy = policy ∧ ¬ b.Known l.site l.guard := by
  cases h with
  | answered y st m found => exact .inl hl
  | followed id st m m' missed taken => exact .inl hl
  | led u st m m' missed there free =>
      rcases List.mem_append.mp hl with hold | hnew
      · exact .inl hold
      · obtain rfl := List.mem_singleton.mp hnew
        have hsound := hb.sound site u there
        refine .inr ⟨rfl, rfl, ?_⟩
        rintro (hslot | ⟨how, hend⟩)
        · obtain ⟨table, htable, hin⟩ := mem_slots.mp hslot
          rw [there] at htable
          cases htable
          exact Nat.lt_irrefl _ (hsound.slot_lt _ hin)
        · unfold System.outcome? at hend
          rw [there, Option.bind_some, hsound.outcome?_nextId] at hend
          cases hend

/-- Who is appointed in an attempt works for it. -/
theorem Try.appointed (h : Try B b caller site r policy joined t)
    (hl : t.leaders = b.leaders ++ [l]) : l.request = r ∧ l.policy = policy := by
  have hnone : b.leaders ≠ b.leaders ++ [l] := by simp
  cases h with
  | answered y st m found => exact absurd hl hnone
  | followed id st m m' missed taken => exact absurd hl hnone
  | led u st m m' missed there free =>
      obtain ⟨-, hlast⟩ := List.append_inj' hl rfl
      cases hlast
      exact ⟨rfl, rfl⟩

/-- Without an attempt nobody starts to wait, and nobody to lead. -/
theorem Deed.calm (h : Deed B s e t) (hs : s.Coherent) (ha : s.attempt? e = none) :
    (∀ x ∈ t.waiters, x ∈ s.waiters)
      ∧ ∀ l ∈ t.leaders, ∃ m ∈ s.leaders, l.site = m.site ∧ l.guard = m.guard
        ∧ l.request = m.request ∧ l.policy = m.policy := by
  constructor
  · intro x hx
    rcases h.line.mem_waiters hx with hold | ⟨hattempt, -⟩
    · exact hold
    · rw [ha] at hattempt
      cases hattempt
  · intro l hl
    rcases h.mem_leaders hs hl with
      hold | ⟨-, c, hattempt⟩ | ⟨m, hm, -, -, rfl, -⟩
    · exact ⟨l, hold, rfl, rfl, rfl, rfl⟩
    · rw [ha] at hattempt
      cases hattempt
    · exact ⟨m, hm, rfl, rfl, rfl, rfl⟩

/-- A flight that was started has been started ever since. -/
theorem Known.step {guard : FlightGuard} (h : s.Known site guard)
    (hs : s.Coherent) (hdeed : Deed B s e t) : t.Known site guard := by
  rcases h with hslot | ⟨how, hend⟩
  · exact (hs.slot_or_ended hdeed.shift hslot).imp_right
      fun ⟨_, how, _, _, _, _, hend⟩ => ⟨how, hend⟩
  · exact .inr ⟨how, hs.outcome?_keep hdeed.shift hend⟩

-- =========================================================== appointments

/-- The event appoints the leader of a flight, in an attempt of the caller. -/
def Appoints (B : Backend σ) (s : System σ) (e : Event) (caller : CallerId)
    (site : Nat) (guard : FlightGuard) : Prop :=
  (∃ r, s.attempt? e = some (site, caller, r))
    ∧ ∃ t m, s.step B e = some t ∧ t.leaders = s.leaders ++ [m]
      ∧ m.site = site ∧ m.guard = guard

/-- In the course of the events an attempt of the caller has appointed the
leader of this flight. -/
def LeadsFor (B : Backend σ) (s : System σ) (events : List Event)
    (caller : CallerId) (l : Leader) : Prop :=
  ∃ past e rest v, events = past ++ e :: rest ∧ s.run B past = some v
    ∧ Appoints B v e caller l.site l.guard

/-- Flights do not lose the caller they are led for. -/
theorem LeadsFor.congr {m : Leader} (h : LeadsFor B s events caller l)
    (hsite : m.site = l.site) (hguard : m.guard = l.guard) :
    LeadsFor B s events caller m := by
  unfold LeadsFor at h ⊢
  rw [hsite, hguard]
  exact h

theorem not_leadsFor_nil : ¬ LeadsFor B s [] caller l := by
  rintro ⟨past, e, rest, v, hnil, -⟩
  simp at hnil

/-- The appointment was made before, or in the last step. -/
theorem LeadsFor.snoc (h : LeadsFor B s (events ++ [e]) caller l)
    (hv : s.run B events = some v) :
    LeadsFor B s events caller l ∨ Appoints B v e caller l.site l.guard := by
  obtain ⟨past, e', rest, u, hsplit, hu, happoints⟩ := h
  rcases List.eq_nil_or_concat rest with rfl | ⟨front, last, rfl⟩
  · obtain ⟨rfl, hlast⟩ := List.append_inj' hsplit rfl
    cases hlast
    rw [hv] at hu
    cases hu
    exact .inr happoints
  · rw [List.concat_eq_append, ← List.cons_append, ← List.append_assoc] at hsplit
    obtain ⟨hfront, -⟩ := List.append_inj' hsplit rfl
    exact .inl ⟨past, e', front, u, hfront, hu, happoints⟩

-- =============================================================== mandates

/-- Since the system was `s`, after these events: who works for the caller's
request goes by one policy, and the flights that are led for it have been
started. -/
structure Mandate (B : Backend σ) (s : System σ) (events : List Event)
    (caller : CallerId) (q : Incoming) (p : Policy) (v : System σ) : Prop where
  waiters : ∀ x ∈ v.waiters, x.caller = caller → x.policy = p ∧ q.Prepares x.request
  passers : ∀ g ∈ v.passers, g.caller = caller → g.policy = p
  leaders : ∀ l ∈ v.leaders, LeadsFor B s events caller l →
    l.policy = p ∧ q.Prepares l.request
  known : ∀ l, LeadsFor B s events caller l → v.Known l.site l.guard

/-- The attempts of the caller are made under that policy. -/
theorem Mandate.attempt (h : Mandate B s events caller q p v)
    (own : ∀ n q', e = .arrive n caller q' → q' = q ∧ v.policy? n = some p)
    (ha : v.attempt? e = some (site, caller, r))
    (hm : v.mandate? e = some policy) : policy = p ∧ q.Prepares r := by
  rcases attempt?_spec ha with ⟨q', i, key, rfl, -, hkey, rfl⟩
    | ⟨x, rfl, hx, -, -, -, hcaller, rfl⟩
  · obtain ⟨rfl, hp⟩ := own site q' rfl
    rw [show v.mandate? _ = v.policy? site from rfl, hp] at hm
    cases hm
    exact ⟨rfl, key, Incoming.hasKey_of_ofRequest hkey, rfl⟩
  · rw [show v.mandate? _ = (v.waiters.find? _).map _ from rfl, hx] at hm
    cases hm
    exact h.waiters x (List.mem_of_find?_eq_some hx) hcaller

/-- Who is appointed for the caller goes by that policy. -/
theorem Mandate.appointed (h : Mandate B s events caller q p v)
    (own : ∀ n q', e = .arrive n caller q' → q' = q ∧ v.policy? n = some p)
    (hw : v.step B e = some w) {guard : FlightGuard}
    (ha : Appoints B v e caller site guard) :
    ∃ m ∈ w.leaders, m.site = site ∧ m.guard = guard ∧ m.policy = p
      ∧ q.Prepares m.request := by
  obtain ⟨⟨r, hattempt⟩, t, m, ht, hleaders, hsite, hguard⟩ := ha
  rw [hw] at ht
  cases ht
  obtain ⟨policy, joined, b, hmandate, hb, -, htry⟩ := step_attempt hattempt hw
  have hbase : b.leaders = v.leaders := by
    rcases hb with rfl | rfl <;> rfl
  obtain ⟨hreq, hpolicy⟩ := htry.appointed (l := m) (by rw [hbase, hleaders])
  obtain ⟨hp, hprepares⟩ := h.attempt own hattempt hmandate
  refine ⟨m, ?_, hsite, hguard, hpolicy.trans hp, ?_⟩
  · rw [hleaders]
    exact List.mem_append_right _ (List.mem_cons_self ..)
  · rw [hreq]
    exact hprepares

theorem Mandate.step (h : Mandate B s events caller q p v)
    (hrun : s.run B events = some v) (hv : v.Coherent)
    (own : ∀ n q', e = .arrive n caller q' → q' = q ∧ v.policy? n = some p)
    (hw : v.step B e = some w) : Mandate B s (events ++ [e]) caller q p w := by
  have hdeed := step_deed hw
  have hcoherent := hv.shift hdeed.shift
  refine ⟨fun x hx hcaller => ?_, fun g hg hcaller => ?_, fun l hl hled => ?_,
    fun l hled => ?_⟩
  · cases ha : v.attempt? e with
    | none => exact h.waiters x ((hdeed.calm hv ha).1 x hx) hcaller
    | some a =>
        obtain ⟨n, c, r⟩ := a
        obtain ⟨policy, joined, b, hmandate, hb, -, htry⟩ := step_attempt ha hw
        rcases htry.waiter hx with hold | ⟨rfl, hreq, hpolicy⟩
        · refine h.waiters x ?_ hcaller
          rcases hb with rfl | rfl
          · exact hold
          · exact List.mem_of_mem_filter hold
        · subst hcaller
          obtain ⟨hp, hprepares⟩ := h.attempt own ha hmandate
          rw [hreq]
          exact ⟨hpolicy.trans hp, hprepares⟩
  · rcases hdeed.mem_passers hg with
      hold | ⟨n, q', i, hevent, there, -, hpolicy, -⟩
    · exact h.passers g hold hcaller
    · rw [hcaller] at hevent
      obtain ⟨-, hforce⟩ := own n q' hevent
      rw [policy?_of_instance there, ← hpolicy] at hforce
      exact Option.some.inj hforce
  · rcases hled.snoc hrun with hbefore | hnow
    · cases ha : v.attempt? e with
      | none =>
          obtain ⟨m, hm, hsite, hguard, hreq, hpolicy⟩ := (hdeed.calm hv ha).2 l hl
          rw [hreq, hpolicy]
          exact h.leaders m hm (hbefore.congr hsite.symm hguard.symm)
      | some a =>
          obtain ⟨n, c, r⟩ := a
          obtain ⟨policy, joined, b, -, hb, -, htry⟩ := step_attempt ha hw
          -- a new leader's flight is new, this one's is not
          have hknown := h.known l hbefore
          rcases hb with rfl | rfl
          · rcases htry.leader hv hl with hold | ⟨-, -, hfresh⟩
            · exact h.leaders l hold hbefore
            · exact absurd hknown hfresh
          · rcases htry.leader (hv.congr (fun _ => rfl) rfl) hl with
              hold | ⟨-, -, hfresh⟩
            · exact h.leaders l hold hbefore
            · exact absurd hknown hfresh
    · obtain ⟨m, hm, hsite, hguard, hpolicy, hprepares⟩ := h.appointed own hw hnow
      have hsame := hcoherent.single l hl m hm hsite.symm (by rw [hguard])
      rw [hsame]
      exact ⟨hpolicy, hprepares⟩
  · rcases hled.snoc hrun with hbefore | hnow
    · exact (h.known l hbefore).step hv hdeed
    · obtain ⟨m, hm, hsite, hguard, -⟩ := h.appointed own hw hnow
      have hflying := hcoherent.flying m hm
      rw [hsite, hguard] at hflying
      exact .inl hflying

/-- In a run in which callers have numbers of their own, a caller's request
arrives once. -/
theorem own_arrival {past more front rest : List Event} {n : Nat} {q' : Incoming}
    (hn : Numbered (past ++ .arrive site caller q :: more))
    (hp : s.policy? site = some p) (hu : s.run B front = some u)
    (hsplit : .arrive site caller q :: more = front ++ .arrive n caller q' :: rest) :
    q' = q ∧ u.policy? n = some p := by
  cases front with
  | nil =>
      cases hsplit
      cases hu
      exact ⟨rfl, hp⟩
  | cons first front =>
      obtain ⟨rfl, rfl⟩ := List.cons.inj hsplit
      have hagain : Numbered ((past ++ .arrive site caller q :: front)
          ++ .arrive n caller q' :: rest) := by
        simpa using hn
      refine absurd ?_ hagain.not_mem
      rw [List.filterMap_append]
      exact List.mem_append_right _ (List.mem_cons_self ..)

/-- Nobody works for a caller who has not arrived. -/
theorem mandate_nil {past : List Event} (hs : s.Staffed past)
    (hnew : caller ∉ past.filterMap Event.arrival?) : Mandate B s [] caller q p s := by
  refine ⟨fun x hx hcaller => ?_, fun g hg hcaller => ?_,
    fun l hl hled => absurd hled not_leadsFor_nil,
    fun l hled => absurd hled not_leadsFor_nil⟩
  · rw [← hcaller] at hnew
    exact absurd (hs.queue.arrived x hx) hnew
  · obtain ⟨n, q', hin, -⟩ := hs.traced.passers g hg
    rw [hcaller] at hin
    exact (hnew (List.mem_filterMap.mpr ⟨_, hin, rfl⟩)).elim

/-- Whoever works for a request that arrives in a run goes by the policy in
force at its arrival. -/
theorem mandate_run {past more : List Event} (hs : s.Staffed past)
    (hn : Numbered (past ++ .arrive site caller q :: more))
    (hp : s.policy? site = some p)
    (hv : s.run B (.arrive site caller q :: more) = some v) :
    Mandate B s (.arrive site caller q :: more) caller q p v := by
  refine run_induction (P := fun events v => Mandate B s events caller q p v) hv
    (mandate_nil hs hn.not_mem) ?_
  intro front e rest u w hsplit hu hP hstep
  refine hP.step hu (hs.coherent.run hu) ?_ hstep
  rintro n q' rfl
  exact own_arrival hn hp hu hsplit

end System

end OnceProxy.Proxy
