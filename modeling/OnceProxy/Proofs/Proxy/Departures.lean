/-
Departures: that callers go away is not seen by anyone else.

A caller that waits for a flight is nothing but a line in the list of those
that wait, also the one whose request started the flight: the leader is a
party of its own, with the guard, the call and what is to be stored. So the
view of the others (`System.without`) is the system but for the lines of the
callers that go away, and the replies to them. No event looks at these
(`step_without`), and a departure and a waking change nothing else
(`wake_unseen`, `leave_unseen`). Hence runs that differ only in departures
and wakings of such callers go through the same views, one after each of the
other events (`run_staying`).

Two things are needed. No leader dies, since a caller that is woken from an
aborted flight starts over and may lead the next one. And the callers that go
away have keys, since a call without key is dropped together with its caller.
-/
import OnceProxy.Proofs.Proxy.FanOut
import OnceProxy.Proofs.Proxy.Views

namespace OnceProxy.Proxy

open Store

variable {σ : Type} {B : Backend σ} {gone : CallerId → Bool}

-- =============================================================== the view

/-- The event is the departure or the waking of such a caller. -/
def Event.isAbout (gone : CallerId → Bool) : Event → Bool
  | .leave caller | .wake caller => gone caller
  | _ => false

/-- The event lets no leader die, and brings no request without key of such a
caller. -/
def Event.Spares (gone : CallerId → Bool) : Event → Prop
  | .crash .. => False
  | .arrive _ caller r => gone caller = true → r.key ≠ none
  | _ => True

instance (gone : CallerId → Bool) (e : Event) : Decidable (e.Spares gone) :=
  match e with
  | .crash .. => inferInstanceAs (Decidable False)
  | .arrive _ caller r =>
    inferInstanceAs (Decidable (gone caller = true → r.key ≠ none))
  | .lead .. | .answer .. | .timeout .. | .wake .. | .leave .. | .elapse ..
  | .advance .. | .setPolicy .. | .sweep => inferInstanceAs (Decidable True)

theorem Event.spares_of_isAbout {e : Event} (h : e.isAbout gone = true) :
    e.Spares gone := by
  cases e with
  | leave caller | wake caller => trivial
  | _ => cases h

namespace System

variable {s t u : System σ} {e : Event}

/-- The system but for what concerns such callers only: their waiting, and
the replies to them. -/
def without (s : System σ) (gone : CallerId → Bool) : System σ :=
  { s with
    waiters := s.waiters.filter fun w => !gone w.caller
    replies := s.replies.filter fun p => !gone p.1 }

/-- What the others see of a run: the view after each event that is not
about such callers. -/
def views (B : Backend σ) (gone : CallerId → Bool) :
    System σ → List Event → List (System σ) :=
  noted B fun _ e t => if e.isAbout gone then [] else [t.without gone]

-- ================================================================ blindness

theorem without_eq_view (s : System σ) (gone : CallerId → Bool) :
    s.without gone = s.view gone id := by
  have hinstances :
      (s.instances.map fun i => { i with policy := id i.policy })
        = s.instances := List.map_id s.instances
  unfold without view
  rw [hinstances]

/-- No other event looks at what the view leaves out. -/
theorem step_without (s : System σ) (other : e.isAbout gone = false) :
    ((s.without gone).step B e).map (·.without gone)
      = (s.step B e).map (·.without gone) := by
  simp only [without_eq_view]
  refine step_view s (fun _ => rfl) (.inr rfl) fun caller hwake => ?_
  rw [hwake] at other
  exact other

/-- Systems that look alike to the others do so after every other event. -/
theorem step_alike (alike : s.without gone = t.without gone)
    (other : e.isAbout gone = false) :
    (s.step B e).map (·.without gone) = (t.step B e).map (·.without gone) := by
  rw [← step_without s other, alike, step_without t other]

-- ============================================================= departures

theorem dropWaiter_unseen (s : System σ) {caller : CallerId}
    (hgone : gone caller = true) :
    (s.dropWaiter caller).without gone = s.without gone := by
  have hwaiters : (s.waiters.filter (·.caller ≠ caller)).filter
      (fun w => !gone w.caller) = s.waiters.filter fun w => !gone w.caller := by
    rw [List.filter_filter]
    refine List.filter_congr fun w _ => ?_
    by_cases hw : w.caller = caller
    · simp [hw, hgone]
    · simp [hw]
  unfold dropWaiter without
  rw [hwaiters]

theorem reply_unseen (s : System σ) {caller : CallerId}
    (hgone : gone caller = true) (x : Except ProxyError Replay) :
    (s.reply caller x).without gone = s.without gone := by
  unfold reply without
  simp [List.filter_append, hgone]

/-- No flight was aborted, and no call without key belongs to such a
caller. -/
structure Spared (gone : CallerId → Bool) (s : System σ) : Prop where
  coherent : s.Coherent
  finished : ∀ site id, s.outcome? site id ≠ some .aborted
  keyed : ∀ p ∈ s.passers, gone p.caller = false

theorem spared_start (wall : Int) (store : σ) (policies : List Policy) :
    (start wall store policies).Spared gone := by
  refine ⟨coherent_start wall store policies, fun site id hover => ?_,
    fun _ hp => absurd hp List.not_mem_nil⟩
  rw [outcome?_start] at hover
  cases hover

namespace Spared

theorem step (h : s.Spared gone) (spares : e.Spares gone)
    (hstep : s.step B e = some t) : t.Spared gone := by
  have hdeed := step_deed hstep
  refine ⟨h.coherent.shift hdeed.shift, fun site id hover => ?_,
    fun p hp => ?_⟩
  · rcases h.coherent.outcome?_shift hdeed.shift with
      hsame | ⟨l, how, m, hclose, -, hends⟩
    · rw [hsame] at hover
      exact h.finished site id hover
    · by_cases hit : site = l.site ∧ id = l.guard.id
      · -- the flight has just been aborted, so its leader has died
        rw [hends, if_pos hit] at hover
        cases hover
        generalize t.store = st at hclose
        cases hclose
        exact spares
      · rw [hends, if_neg hit] at hover
        exact h.finished site id hover
  · rcases hdeed.mem_passers hp with
      hold | ⟨site, r, i, rfl, -, hkeyless, -⟩
    · exact h.keyed p hold
    · refine Bool.eq_false_iff.mpr fun hgone => ?_
      exact spares hgone (Incoming.key_eq_none_of_ofRequest hkeyless)

/-- A departure changes nothing that the others see. -/
theorem leave_unseen (h : s.Spared gone) {caller : CallerId}
    (hgone : gone caller = true) :
    (s.leave caller).without gone = s.without gone := by
  have hpassers : s.passers.filter (·.caller ≠ caller) = s.passers := by
    refine List.filter_eq_self.mpr fun p hp => ?_
    have hstays := h.keyed p hp
    refine decide_eq_true fun hcaller => ?_
    rw [hcaller, hgone] at hstays
    cases hstays
  have hleave : s.leave caller = s.dropWaiter caller := by
    unfold leave dropPasser dropWaiter
    rw [hpassers]
  rw [hleave, dropWaiter_unseen s hgone]

/-- Nor does a waking. -/
theorem wake_unseen (h : s.Spared gone) {caller : CallerId}
    (hgone : gone caller = true) (hwake : s.step B (.wake caller) = some t) :
    t.without gone = s.without gone := by
  cases step_deed hwake with
  | settled w outcome waits isOver =>
      rw [reply_unseen _ hgone, dropWaiter_unseen s hgone]
  | retried w t waits isOver more attempt =>
      exact absurd isOver (h.finished w.site w.flight)
  | exhausted w waits isOver noMore =>
      exact absurd isOver (h.finished w.site w.flight)
  | ended e l how st m close => cases close

theorem unseen (h : s.Spared gone) (about : e.isAbout gone = true)
    (hstep : s.step B e = some t) : t.without gone = s.without gone := by
  cases e with
  | leave caller =>
      cases hstep
      exact h.leave_unseen about
  | wake caller => exact h.wake_unseen about hstep
  | _ => cases about

end Spared

-- ================================================================== runs

theorem Spared.run {events : List Event} (h : s.Spared gone)
    (spares : ∀ e ∈ events, e.Spares gone) (hu : s.run B events = some u) :
    u.Spared gone := by
  refine run_induction (P := fun _ u => u.Spared gone) hu h ?_
  rintro past e rest v w rfl - hv hstep
  exact hv.step (spares e (by simp)) hstep

/-- A run goes through the same views if the departures and wakings of such
callers are left out. -/
theorem Spared.run_staying {events : List Event} (h : s.Spared gone)
    (alike : s.without gone = t.without gone)
    (spares : ∀ e ∈ events, e.Spares gone) (hu : s.run B events = some u) :
    ∃ v, t.run B (events.filter fun e => !e.isAbout gone) = some v
      ∧ v.without gone = u.without gone
      ∧ views B gone t (events.filter fun e => !e.isAbout gone)
        = views B gone s events := by
  induction events generalizing s t with
  | nil =>
      cases hu
      exact ⟨t, rfl, alike.symm, rfl⟩
  | cons e events ih =>
      obtain ⟨s', hs', hrest⟩ := run_cons hu
      have hspared := h.step (spares e (List.mem_cons_self ..)) hs'
      have hspares : ∀ f ∈ events, f.Spares gone := fun f hf =>
        spares f (List.mem_cons_of_mem _ hf)
      cases habout : e.isAbout gone with
      | true =>
          -- the second run stays where it is
          have hsame := h.unseen habout hs'
          obtain ⟨v, hv, hview, hviews⟩ :=
            ih hspared (hsame.trans alike) hspares hrest
          rw [List.filter_cons_of_neg (by simp [habout])]
          refine ⟨v, hv, hview, ?_⟩
          rw [hviews]
          unfold views
          rw [noted_cons hs', habout]
          rfl
      | false =>
          -- both runs take the step
          have hboth : (t.step B e).map (·.without gone)
              = some (s'.without gone) := by
            rw [← step_alike alike habout, hs']
            rfl
          obtain ⟨t', ht', halike⟩ := Option.map_eq_some_iff.mp hboth
          obtain ⟨v, hv, hview, hviews⟩ :=
            ih hspared halike.symm hspares hrest
          rw [List.filter_cons_of_pos (by simp [habout])]
          refine ⟨v, ?_, hview, ?_⟩
          · show (t.step B e).bind _ = some v
            rw [ht']
            exact hv
          · unfold views at hviews ⊢
            rw [noted_cons hs', noted_cons ht', hviews, halike]

/-- Departures are not seen. Take any run in which no leader dies, over any
backend, and any callers that come with keys. When one of them goes away or
is woken, nothing changes for the others: not the calls, the store or the
flights, not who leads, and nobody else's waiting or replies. The run in which
they neither go away nor are woken can happen as well; and every run with the
same events, but for departures and wakings of these callers, goes through
the same views, one after each of those events, and ends in the same one. -/
theorem departures_unseen (B : Backend σ) (gone : CallerId → Bool)
    (wall : Int) (store : σ) (policies : List Policy) {events : List Event}
    {u : System σ} (hu : (start wall store policies).run B events = some u)
    (spares : ∀ e ∈ events, e.Spares gone) :
    (∀ past e rest s t, events = past ++ e :: rest →
      (start wall store policies).run B past = some s →
      s.step B e = some t → e.isAbout gone = true →
      t.without gone = s.without gone)
    ∧ (∃ v, (start wall store policies).run B
      (events.filter fun e => !e.isAbout gone) = some v)
    ∧ ∀ others v,
      (others.filter fun e => !e.isAbout gone)
        = events.filter (fun e => !e.isAbout gone) →
      (start wall store policies).run B others = some v →
      views B gone (start wall store policies) others
        = views B gone (start wall store policies) events
      ∧ v.without gone = u.without gone := by
  have hstart : (start wall store policies).Spared gone :=
    spared_start wall store policies
  obtain ⟨w, hw, hview, hviews⟩ := hstart.run_staying rfl spares hu
  refine ⟨?_, ⟨w, hw⟩, ?_⟩
  · rintro past e rest s t rfl hs hstep habout
    have hpast := hstart.run (fun f hf => spares f (by simp [hf])) hs
    exact hpast.unseen habout hstep
  · intro others v hsame hv
    have hothers : ∀ e ∈ others, e.Spares gone := by
      intro e he
      cases habout : e.isAbout gone with
      | true => exact Event.spares_of_isAbout habout
      | false =>
          have hkept : e ∈ others.filter fun e => !e.isAbout gone :=
            List.mem_filter.mpr ⟨he, by simp [habout]⟩
          rw [hsame] at hkept
          exact spares e (List.mem_filter.mp hkept).1
    obtain ⟨w', hw', hview', hviews'⟩ := hstart.run_staying rfl hothers hv
    rw [hsame] at hw' hviews'
    rw [hw] at hw'
    cases hw'
    exact ⟨hviews'.symm.trans hviews, hview'.symm.trans hview⟩

/-- The caller whose request leads goes away during the call. -/
def deserted : List Event :=
  [.arrive 0 0 Sample.order, .arrive 0 1 Sample.order, .lead 0 0, .leave 0,
    .answer 0 (.ok Sample.created), .wake 1]

/-- It stays and is woken. -/
def attended : List Event :=
  [.arrive 0 0 Sample.order, .arrive 0 1 Sample.order, .lead 0 0,
    .answer 0 (.ok Sample.created), .wake 0, .wake 1]

/-- Whoever else waits gets the same reply, out of the same call. -/
theorem departures_unseen_deserted :
    ∃ u v, (start 0 .empty [Sample.policy]).run MemoryStore.backend deserted
        = some u
      ∧ (start 0 .empty [Sample.policy]).run MemoryStore.backend attended
        = some v
      ∧ u.replies.length = 1 ∧ v.replies.length = 2
      ∧ v.without (· == 0) = u.without (· == 0) := by
  have hdeserted : ((start 0 .empty [Sample.policy]).run MemoryStore.backend
      deserted).map (·.replies.length) = some 1 := by decide +kernel
  have hattended : ((start 0 .empty [Sample.policy]).run MemoryStore.backend
      attended).map (·.replies.length) = some 2 := by decide +kernel
  obtain ⟨u, hu, hone⟩ := Option.map_eq_some_iff.mp hdeserted
  obtain ⟨v, hv, htwo⟩ := Option.map_eq_some_iff.mp hattended
  obtain ⟨-, -, hsame⟩ := departures_unseen MemoryStore.backend (· == 0) 0
    .empty [Sample.policy] hu (by decide)
  exact ⟨u, v, hu, hv, hone, htwo, (hsame attended v rfl hv).2⟩

end System

end OnceProxy.Proxy
