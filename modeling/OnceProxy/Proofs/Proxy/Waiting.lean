/-
Who waits, along every run and over any backend.

A caller waits from the attempt that made it join a flight until it is woken
or goes away (`Line`). Where every caller has a number of its own
(`Numbered`), no two that wait share one (`Queue`), so that a wake and a
departure are about one waiting caller.
-/
import Mathlib.Data.List.Induction
import OnceProxy.Proofs.Proxy.Coherence

namespace OnceProxy.Proxy

open Store

variable {σ : Type} {B : Backend σ} {s t u : System σ} {e : Event}

-- ================================================================== runs

namespace System

theorem run_cons {events : List Event}
    (h : s.run B (e :: events) = some u) :
    ∃ t, s.step B e = some t ∧ t.run B events = some u := by
  unfold run at h
  rw [List.foldlM_cons] at h
  exact Option.bind_eq_some_iff.mp h

theorem run_append {front behind : List Event} :
    s.run B (front ++ behind)
      = (s.run B front).bind (·.run B behind) := by
  unfold run
  rw [List.foldlM_append]
  rfl

theorem run_snoc {events : List Event}
    (h : s.run B (events ++ [e]) = some u) :
    ∃ t, s.run B events = some t ∧ t.step B e = some u := by
  rw [run_append] at h
  obtain ⟨t, ht, hlast⟩ := Option.bind_eq_some_iff.mp h
  obtain ⟨v, hv, hdone⟩ := run_cons hlast
  cases hdone
  exact ⟨t, ht, hv⟩

theorem run_concat {events : List Event} (ht : s.run B events = some t)
    (hu : t.step B e = some u) : s.run B (events ++ [e]) = some u := by
  rw [run_append, ht]
  show (t.step B e).bind some = some u
  rw [hu]
  rfl

/-- What holds at first and is kept by every step of a run holds at its
end. It may speak of the events so far. -/
theorem run_induction {P : List Event → System σ → Prop}
    {events : List Event} (hr : s.run B events = some u) (first : P [] s)
    (next : ∀ past e rest v w, events = past ++ e :: rest →
      s.run B past = some v → P past v → v.step B e = some w →
      P (past ++ [e]) w) : P events u := by
  induction events using List.reverseRecOn generalizing u with
  | nil =>
      cases hr
      exact first
  | append_singleton past e ih =>
      obtain ⟨v, hv, hstep⟩ := run_snoc hr
      refine next past e [] v u rfl hv (ih hv ?_) hstep
      intro past' e' rest v' w hpast hv' hP hstep'
      refine next past' e' (rest ++ [e]) v' w ?_ hv' hP hstep'
      rw [hpast, List.append_assoc, List.cons_append]

section Notes

variable {β : Type}

/-- What is noted along a run, step by step. -/
def noted (B : Backend σ) (note : System σ → Event → System σ → List β) :
    System σ → List Event → List β
  | _, [] => []
  | s, e :: rest =>
    match s.step B e with
    | some t => note s e t ++ noted B note t rest
    | none => []

theorem noted_cons {note : System σ → Event → System σ → List β}
    (ht : s.step B e = some t) (rest : List Event) :
    noted B note s (e :: rest) = note s e t ++ noted B note t rest := by
  simp only [noted, ht]

theorem noted_snoc {note : System σ → Event → System σ → List β}
    {past : List Event} (hu : s.run B past = some u)
    (ht : u.step B e = some t) :
    noted B note s (past ++ [e]) = noted B note s past ++ note u e t := by
  induction past generalizing s with
  | nil =>
      cases hu
      rw [List.nil_append, noted_cons ht]
      simp only [noted, List.append_nil, List.nil_append]
  | cons f past ih =>
      obtain ⟨v, hv, hrest⟩ := run_cons hu
      rw [List.cons_append, noted_cons hv, noted_cons hv, ih hrest,
        List.append_assoc]

/-- What a step notes is among all that is noted. -/
theorem mem_noted {note : System σ → Event → System σ → List β}
    {past rest : List Event} (hu : s.run B past = some u)
    (ht : u.step B e = some t) {x : β} (hx : x ∈ note u e t) :
    x ∈ noted B note s (past ++ e :: rest) := by
  induction past generalizing s with
  | nil =>
      cases hu
      rw [List.nil_append, noted_cons ht]
      exact List.mem_append_left _ hx
  | cons f past ih =>
      obtain ⟨v, hv, hrest⟩ := run_cons hu
      rw [List.cons_append, noted_cons hv]
      exact List.mem_append_right _ (ih hrest)

end Notes

/-- Every run keeps a system coherent. -/
theorem Coherent.run {events : List Event} (h : s.Coherent)
    (hr : s.run B events = some u) : u.Coherent :=
  run_induction (P := fun _ u => u.Coherent) hr h
    fun _ _ _ _ _ _ _ hv hstep => hv.shift (step_deed hstep).shift

/-- Ends stay along every run. -/
theorem Coherent.outcome?_run {events : List Event} (h : s.Coherent)
    (hr : s.run B events = some u) {site : Nat} {id : FlightId}
    {how : FlightEnd Outcome} (hover : s.outcome? site id = some how) :
    u.outcome? site id = some how :=
  run_induction (P := fun _ u => u.outcome? site id = some how) hr hover
    fun _ _ _ _ _ _ hv hP hstep =>
      (h.run hv).outcome?_keep (step_deed hstep).shift hP

end System

-- ============================================================== arrivals

/-- The caller whose request arrives. -/
def Event.arrival? : Event → Option CallerId
  | .arrive _ caller _ => some caller
  | _ => none

/-- Every caller has a number of its own. -/
def Numbered (events : List Event) : Prop :=
  (events.filterMap Event.arrival?).Nodup

instance (events : List Event) : Decidable (Numbered events) :=
  inferInstanceAs (Decidable (List.Nodup _))

theorem Numbered.of_append {front behind : List Event}
    (h : Numbered (front ++ behind)) : Numbered front := by
  unfold Numbered at h ⊢
  rw [List.filterMap_append] at h
  exact (List.nodup_append.mp h).1

/-- Who arrives has not arrived before. -/
theorem Numbered.not_mem {past rest : List Event} {site : Nat}
    {caller : CallerId} {r : Incoming}
    (h : Numbered (past ++ .arrive site caller r :: rest)) :
    caller ∉ past.filterMap Event.arrival? := by
  unfold Numbered at h
  rw [List.filterMap_append] at h
  intro hin
  exact (List.nodup_append.mp h).2.2 caller hin caller
    (List.mem_cons_self ..) rfl

theorem Numbered.snoc {past : List Event} (h : Numbered past)
    (fresh : ∀ caller, e.arrival? = some caller →
      caller ∉ past.filterMap Event.arrival?) : Numbered (past ++ [e]) := by
  unfold Numbered at h ⊢
  rw [List.filterMap_append, List.nodup_append]
  cases he : e.arrival? with
  | none =>
      rw [List.filterMap_cons_none he]
      exact ⟨h, .nil, fun _ _ _ hb => absurd hb List.not_mem_nil⟩
  | some caller =>
      rw [List.filterMap_cons_some he]
      refine ⟨h, List.nodup_singleton _, ?_⟩
      rintro c hc d hd rfl
      rw [List.mem_singleton.mp hd] at hc
      exact fresh caller he hc

/-- A number stands for one request. -/
theorem Numbered.request_unique {past : List Event} (hn : Numbered past)
    {site site' : Nat} {caller : CallerId} {q q' : Incoming}
    (h : .arrive site caller q ∈ past) (h' : .arrive site' caller q' ∈ past) :
    q = q' := by
  induction past with
  | nil => cases h
  | cons e past ih =>
      have hn' : Numbered past := by
        unfold Numbered at hn ⊢
        cases he : e.arrival? with
        | none => rwa [List.filterMap_cons_none he] at hn
        | some c =>
            rw [List.filterMap_cons_some he] at hn
            exact (List.nodup_cons.mp hn).2
      have hfirst : ∀ {n p}, Event.arrive n caller p = e →
          ∀ {m o}, .arrive m caller o ∉ past := by
        rintro n p rfl m o hin
        have hn : (caller :: past.filterMap Event.arrival?).Nodup := hn
        exact (List.nodup_cons.mp hn).1 (List.mem_filterMap.mpr ⟨_, hin, rfl⟩)
      rcases List.mem_cons.mp h with heq | hin
      · rcases List.mem_cons.mp h' with heq' | hin'
        · rw [← heq'] at heq
          cases heq
          rfl
        · exact absurd hin' (hfirst heq)
      · rcases List.mem_cons.mp h' with heq' | hin'
        · exact absurd hin (hfirst heq')
        · exact ih hn' hin hin'

namespace System

-- ============================================================== the line

/-- What a step does to those who wait. -/
inductive Line (s : System σ) (e : Event) (t : System σ) : Prop where
  | same (waiters : t.waiters = s.waiters)
  | gone (caller : CallerId) (event : e = .wake caller ∨ e = .leave caller)
      (waiters : t.waiters = s.waiters.filter (·.caller ≠ caller))
  /-- An arriving request joins a flight. -/
  | came (w : Waiter) (r : Incoming) (event : e = .arrive w.site w.caller r)
      (attempts : s.attempt? e = some (w.site, w.caller, w.request))
      (slot : (w.request.fingerprint.entryKey, w.flight) ∈ t.slots w.site)
      (waiters : t.waiters = s.waiters ++ [w])
  /-- A caller that waited joins its next flight. -/
  | again (w : Waiter) (event : e = .wake w.caller)
      (attempts : s.attempt? e = some (w.site, w.caller, w.request))
      (slot : (w.request.fingerprint.entryKey, w.flight) ∈ t.slots w.site)
      (waiters : t.waiters = s.waiters.filter (·.caller ≠ w.caller) ++ [w])

/-- Who waits after a step waited before, or was just looked up and has
joined a flight in progress. -/
theorem Line.mem_waiters (h : Line s e t) {w : Waiter} (hw : w ∈ t.waiters) :
    w ∈ s.waiters
      ∨ s.attempt? e = some (w.site, w.caller, w.request)
        ∧ (w.request.fingerprint.entryKey, w.flight) ∈ t.slots w.site := by
  cases h with
  | same waiters =>
      rw [waiters] at hw
      exact .inl hw
  | gone caller event waiters =>
      rw [waiters] at hw
      exact .inl (List.mem_of_mem_filter hw)
  | came x r event attempts slot waiters =>
      rw [waiters] at hw
      rcases List.mem_append.mp hw with hw' | hw'
      · exact .inl hw'
      · obtain rfl := List.mem_singleton.mp hw'
        exact .inr ⟨attempts, slot⟩
  | again x event attempts slot waiters =>
      rw [waiters] at hw
      rcases List.mem_append.mp hw with hw' | hw'
      · exact .inl (List.mem_of_mem_filter hw')
      · obtain rfl := List.mem_singleton.mp hw'
        exact .inr ⟨attempts, slot⟩

/-- An attempt makes its caller wait for a flight in progress, or nobody. -/
theorem Try.waiters {caller : CallerId} {site : Nat} {r : Prepared}
    {policy : Policy} {joined : Nat}
    (h : Try B s caller site r policy joined t) :
    t.waiters = s.waiters ∨ ∃ w : Waiter, t.waiters = s.waiters ++ [w]
      ∧ w.caller = caller ∧ w.site = site ∧ w.request = r
      ∧ (r.fingerprint.entryKey, w.flight) ∈ t.slots site := by
  cases h with
  | answered x st m found => exact .inl rfl
  | followed id st m m' missed taken =>
      exact .inr ⟨_, rfl, rfl, rfl, rfl, Association.mem_of_lookup taken⟩
  | led u st m m' missed there free =>
      exact .inr ⟨_, rfl, rfl, rfl, rfl, (mem_slots_launch there free
        (table?_join s there r.fingerprint.entryKey)).mpr
        (.inr ⟨rfl, rfl⟩)⟩

theorem Deed.line (h : Deed B s e t) : Line s e t := by
  cases h with
  | attempted site caller r i key t there keyed attempt =>
      rcases attempt.waiters with hsame | ⟨w, hw, rfl, rfl, hreq, hslot⟩
      · exact .same hsame
      · refine .came w r rfl ?_ (by rw [hreq]; exact hslot) hw
        rw [hreq]
        exact attempt?_arrive there keyed w.caller
  | retried o t waits isOver more attempt =>
      rcases attempt.waiters with hgone | ⟨w, hw, hcaller, hsite, hreq, hslot⟩
      · exact .gone o.caller (.inl rfl) hgone
      · have hattempts := attempt?_wake waits isOver more
        rw [← hcaller, ← hsite, ← hreq] at hattempts
        rw [← hsite, ← hreq] at hslot
        have hgone : (s.dropWaiter o.caller).waiters
            = s.waiters.filter (·.caller ≠ w.caller) := by
          rw [hcaller]
          rfl
        rw [hgone] at hw
        rw [← hcaller]
        exact .again w rfl hattempts hslot hw
  | settled o outcome waits isOver => exact .gone o.caller (.inl rfl) rfl
  | exhausted o waits isOver noMore => exact .gone o.caller (.inl rfl) rfl
  | left caller => exact .gone caller (.inr rfl) rfl
  | refused | passed | called | ended | passerAnswered | passerLate
  | elapsed | advanced | policySet | swept => exact .same rfl

/-- An attempt gives its caller a reply, or nobody. -/
theorem Try.lastReply {caller : CallerId} {site : Nat} {r : Prepared}
    {policy : Policy} {joined : Nat}
    (h : Try B s caller site r policy joined t) :
    t.replies = s.replies ∨ ∃ x, t.replies = s.replies ++ [(caller, x)] := by
  cases h with
  | answered x st m found => exact .inr ⟨x, rfl⟩
  | followed | led => exact .inl rfl

/-- A step gives at most one reply: to who arrives, to a waiting caller that
is woken, or to a caller with a call of its own. -/
theorem Deed.lastReply (h : Deed B s e t) :
    t.replies = s.replies ∨ ∃ c x, t.replies = s.replies ++ [(c, x)]
      ∧ (e.arrival? = some c ∨ (e = .wake c ∧ ∃ w ∈ s.waiters, w.caller = c)
        ∨ ∃ g ∈ s.passers, g.caller = c) := by
  cases h with
  | refused site caller r i fault there bad =>
      exact .inr ⟨caller, _, rfl, .inl rfl⟩
  | attempted site caller r i key t there keyed attempt =>
      exact attempt.lastReply.imp_right fun ⟨x, hlast⟩ =>
        ⟨caller, x, hlast, .inl rfl⟩
  | retried w t waits isOver more attempt =>
      have hw := List.mem_of_find?_eq_some waits
      exact attempt.lastReply.imp_right fun ⟨x, hlast⟩ =>
        ⟨w.caller, x, hlast, .inr (.inl ⟨rfl, w, hw, rfl⟩)⟩
  | settled w outcome waits isOver =>
      have hw := List.mem_of_find?_eq_some waits
      exact .inr ⟨w.caller, _, rfl, .inr (.inl ⟨rfl, w, hw, rfl⟩)⟩
  | exhausted w waits isOver noMore =>
      have hw := List.mem_of_find?_eq_some waits
      exact .inr ⟨w.caller, _, rfl, .inr (.inl ⟨rfl, w, hw, rfl⟩)⟩
  | passerAnswered m g answer waits keyless inTime =>
      have hg := List.mem_of_find?_eq_some waits
      exact .inr ⟨g.caller, _, rfl, .inr (.inr ⟨g, hg, rfl⟩)⟩
  | passerLate m g waits keyless overdue =>
      have hg := List.mem_of_find?_eq_some waits
      exact .inr ⟨g.caller, _, rfl, .inr (.inr ⟨g, hg, rfl⟩)⟩
  | passed | called | ended | left | elapsed | advanced | policySet | swept =>
      exact .inl rfl

/-- Replies are given, not taken back. -/
theorem Deed.replies (h : Deed B s e t) : s.replies <+: t.replies := by
  rcases h.lastReply with hsame | ⟨c, x, hlast, -⟩
  · exact hsame ▸ List.prefix_refl s.replies
  · exact hlast ▸ List.prefix_append s.replies [(c, x)]

/-- Those who wait have numbers of their own, and have arrived. -/
structure Queue (s : System σ) (past : List Event) : Prop where
  nodup : (s.waiters.map (·.caller)).Nodup
  arrived : ∀ w ∈ s.waiters, w.caller ∈ past.filterMap Event.arrival?

theorem find?_waiter {w : Waiter} (hw : w ∈ s.waiters)
    (own : ∀ x ∈ s.waiters, x.caller = w.caller → x = w) :
    s.waiters.find? (·.caller = w.caller) = some w :=
  find?_unique hw (by simp) fun x hx hcaller => own x hx (by simpa using hcaller)

theorem Queue.own {past : List Event} (h : s.Queue past) {w : Waiter}
    (hw : w ∈ s.waiters) : ∀ x ∈ s.waiters, x.caller = w.caller → x = w :=
  fun _ hx hcaller => List.inj_on_of_nodup_map h.nodup hx hw hcaller

theorem Queue.step {past rest : List Event} (h : s.Queue past)
    (hn : Numbered (past ++ e :: rest)) (hline : Line s e t) :
    t.Queue (past ++ [e]) := by
  have hpast : ∀ w ∈ s.waiters,
      w.caller ∈ (past ++ [e]).filterMap Event.arrival? := by
    intro w hw
    rw [List.filterMap_append]
    exact List.mem_append_left _ (h.arrived w hw)
  have hfilter : ∀ caller,
      ((s.waiters.filter (·.caller ≠ caller)).map (·.caller)).Nodup :=
    fun caller => h.nodup.sublist (List.filter_sublist.map _)
  cases hline with
  | same waiters => exact ⟨by rw [waiters]; exact h.nodup,
      by rw [waiters]; exact hpast⟩
  | gone caller event waiters =>
      refine ⟨by rw [waiters]; exact hfilter caller, ?_⟩
      rw [waiters]
      intro w hw
      exact hpast w (List.mem_of_mem_filter hw)
  | came w r event attempts slot waiters =>
      subst event
      have hnew := hn.not_mem
      constructor
      · rw [waiters, List.map_append, List.nodup_append]
        refine ⟨h.nodup, List.nodup_singleton _, ?_⟩
        intro a ha b hb hab
        obtain ⟨o, ho, rfl⟩ := List.mem_map.mp ha
        obtain rfl := List.mem_singleton.mp hb
        rw [← show o.caller = w.caller from hab] at hnew
        exact hnew (h.arrived o ho)
      · rw [waiters]
        intro o ho
        rcases List.mem_append.mp ho with ho' | ho'
        · exact hpast o ho'
        · obtain rfl := List.mem_singleton.mp ho'
          rw [List.filterMap_append]
          exact List.mem_append_right _ (List.mem_cons_self ..)
  | again w event attempts slot waiters =>
      obtain ⟨o, ho, hcaller⟩ : ∃ o ∈ s.waiters, o.caller = w.caller := by
        rcases attempt?_spec attempts with ⟨q, i, key, hevent, -⟩
          | ⟨o, -, ho, -, -, -, hcaller, -⟩
        · rw [event] at hevent
          cases hevent
        · exact ⟨o, List.mem_of_find?_eq_some ho, hcaller⟩
      constructor
      · rw [waiters, List.map_append, List.nodup_append]
        refine ⟨hfilter _, List.nodup_singleton _, ?_⟩
        intro a ha b hb hab
        obtain ⟨p, hp, rfl⟩ := List.mem_map.mp ha
        obtain rfl := List.mem_singleton.mp hb
        have hne := (List.mem_filter.mp hp).2
        simp only [decide_eq_true_eq] at hne
        exact hne hab
      · rw [waiters]
        intro p hp
        rcases List.mem_append.mp hp with hp' | hp'
        · exact hpast p (List.mem_of_mem_filter hp')
        · obtain rfl := List.mem_singleton.mp hp'
          rw [← hcaller]
          exact hpast o ho

theorem queue_start (wall : Int) (store : σ) (policies : List Policy) :
    (start wall store policies).Queue [] :=
  ⟨List.nodup_nil, fun _ hw => absurd hw List.not_mem_nil⟩

end System

end OnceProxy.Proxy
