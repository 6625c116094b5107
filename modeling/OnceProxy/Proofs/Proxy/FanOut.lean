/-
Fan-out: what a completed flight gives to those who joined it.

Everyone in a flight is told the same, whoever they are and whenever they
ask: the leader's error if it met one, and else the entry that the flight
came to, if that is the result of their own operation (`shared`). The end of
a flight stays on record (`Coherent.outcome?_run`), so the order in which the
participants are woken makes no difference; and whoever is woken after a
completed flight is replied to and gone, so that nobody in it makes another
attempt (`Served.unattempted`), which is the only way to a call.
-/
import OnceProxy.Proofs.Proxy.Staff

namespace OnceProxy.Proxy

open Http Store

variable {σ : Type} {B : Backend σ} {s t u : System σ} {e : Event}

/-- What a completed flight tells a participant: the error of its leader, or
its entry to those whose operation it is the result of. -/
def shared (outcome : Outcome) (fp : Fingerprint) : Except ProxyError Replay :=
  match outcome with
  | .error fault => .error fault
  | .ok result =>
    if result.entry.fingerprint = fp.id then
      .ok {
        status := result.entry.statusCode
        headers := result.entry.headerMap
        body := result.entry.body
        replayed := !result.fresh }
    else .error .conflict

theorem settle_eq_shared (outcome : Outcome) (fp : Fingerprint) :
    settle outcome fp = shared outcome fp := by
  cases outcome with
  | error fault => rfl
  | ok result =>
      by_cases hown : result.entry.fingerprint = fp.id
      · show (if result.entry.answers fp then _ else _) = _
        simp only [shared, Entry.answers, hown, decide_true, if_true]
        rfl
      · show (if result.entry.answers fp then _ else _) = _
        simp only [shared, Entry.answers, hown, decide_false, if_false]
        rfl

/-- The caller waits for the flight of a leader. -/
def Waiter.Joined (w : Waiter) (l : Leader) : Prop :=
  w.site = l.site ∧ w.flight = l.guard.id

namespace System

-- ============================================================= the ending

/-- A flight that is over after a step of which it was not before has been
ended by its leader. -/
theorem Deed.close (h : Deed B s e t) (hs : s.Coherent) {l : Leader}
    (hl : l ∈ s.leaders) {how : FlightEnd Outcome}
    (hends : t.outcome? l.site l.guard.id = some how) :
    ∃ st m, Close B s e l how st m := by
  have hopen := hs.unended (hs.flying l hl)
  rcases hs.outcome?_shift h.shift with
    hsame | ⟨m, end₁, counted, hclose, -, hnew⟩
  · rw [hsame, hopen] at hends
    cases hends
  · rw [hnew] at hends
    by_cases hit : l.site = m.site ∧ l.guard.id = m.guard.id
    · rw [if_pos hit] at hends
      cases hends
      obtain rfl := hs.single l hl m hclose.mem_leaders hit.1 hit.2
      exact ⟨t.store, counted, hclose⟩
    · rw [if_neg hit, hopen] at hends
      cases hends

/-- What the store answers to a put does not depend on what is counted. -/
theorem converse_bump (c : Counter) (d : Dialogue α) :
    ((s.bump c).converse B d).1 = (s.converse B d).1 :=
  (run_metrics B s.now d s.store (s.bump c).metrics s.metrics).1

/-- A final response is fresh exactly if the store took the entry made of
it. -/
theorem resolve_fresh_iff {l : Leader} {response : Response}
    {result : Resolution}
    (h : (s.resolve B l (.ok response)).1 = .ok result) :
    result.fresh = true
      ↔ (s.converse B (Cache.putIfAbsent l.guard.key
          (l.request.entryFor l.policy response s.now))).1
        = .ok (.stored result.entry) := by
  rw [← converse_bump (.originCalls (.status response.status.code))]
  unfold resolve at h
  dsimp only at h
  cases hclass : classify response.status l.policy with
  | error fault =>
      rw [hclass] at h
      cases h
  | ok v =>
      rw [hclass] at h
      dsimp only at h
      have hnow : (s.bump (.originCalls
          (.status response.status.code))).now = s.now := rfl
      rw [hnow] at h
      split at h
      · cases h
      · next entry v hput =>
        cases h
        rw [hput]
        simp
      · next entry v hput =>
        cases h
        rw [hput]
        simp

/-- A flight comes to a fresh entry exactly if its own call was answered
and the store took the entry made of the answer. -/
theorem Close.fresh_iff {l : Leader} {result : Resolution} {st : σ}
    {m : Metrics} (h : Close B s e l (.completed (.ok result)) st m) :
    result.fresh = true ↔ ∃ c response, l.waiting = some c
      ∧ e = .answer c.call (.ok response)
      ∧ (s.converse B (Cache.putIfAbsent l.guard.key
          (l.request.entryFor l.policy response s.now))).1
        = .ok (.stored result.entry) := by
  cases h with
  | found _ entry _ _ leads idle look =>
      constructor
      · intro hfresh
        cases hfresh
      · rintro ⟨c, response, hwaits, -⟩
        rw [idle] at hwaits
        cases hwaits
  | answered _ c r _ _ _ leads waits inTime result' =>
      cases r with
      | error fault => cases result'
      | ok response =>
          rw [resolve_fresh_iff (congrArg Prod.fst result')]
          constructor
          · intro hstored
            exact ⟨c, response, waits, rfl, hstored⟩
          · rintro ⟨d, response', -, hevent, hstored⟩
            injection hevent with _ hreply
            cases hreply
            exact hstored

-- ============================================================ the waking

/-- Who waits for a completed flight can be woken, and is replied to. -/
theorem wake_completed {w : Waiter}
    (waits : s.waiters.find? (·.caller = w.caller) = some w)
    {outcome : Outcome}
    (isOver : s.outcome? w.site w.flight = some (.completed outcome)) :
    s.step B (.wake w.caller)
      = some ((s.dropWaiter w.caller).reply w.caller
        (shared outcome w.request.fingerprint)) := by
  obtain ⟨table, htable, hover⟩ := Option.bind_eq_some_iff.mp isOver
  obtain ⟨i, hi, rfl⟩ := Option.map_eq_some_iff.mp htable
  show s.wake B w.caller = _
  unfold wake
  rw [← settle_eq_shared]
  simp only [Option.bind_eq_bind, waits, Option.bind_some, hi, hover]
  rfl

/-- The caller of a completed flight, some time after its end: it still
waits, or it has gone away or been replied to. -/
structure Served (w : Waiter) (outcome : Outcome) (past : List Event)
    (s : System σ) : Prop where
  isOver : s.outcome? w.site w.flight = some (.completed outcome)
  own : ∀ x ∈ s.waiters, x.caller = w.caller → x = w
  fate : w ∈ s.waiters ∨ .leave w.caller ∈ past
    ∨ (w.caller, shared outcome w.request.fingerprint) ∈ s.replies

/-- It makes no attempt of its own any more. -/
theorem Served.unattempted {w : Waiter} {outcome : Outcome}
    {past : List Event} (h : Served w outcome past s)
    (fresh : ∀ site r, e ≠ .arrive site w.caller r) (site : Nat)
    (r : Prepared) : s.attempt? e ≠ some (site, w.caller, r) := by
  intro hattempt
  rcases attempt?_spec hattempt with ⟨q, i, key, hevent, -⟩
    | ⟨o, -, ho, haborted, -, -, hcaller, -⟩
  · exact fresh site q hevent
  · obtain rfl := h.own o (List.mem_of_find?_eq_some ho) hcaller
    rw [h.isOver] at haborted
    cases haborted

/-- Whatever happens, it stays so. -/
theorem Served.step {w : Waiter} {outcome : Outcome} {past : List Event}
    (h : Served w outcome past s) (hs : s.Coherent)
    (fresh : ∀ site r, e ≠ .arrive site w.caller r)
    (ht : s.step B e = some t) : Served w outcome (past ++ [e]) t := by
  have hdeed := step_deed ht
  have hother : ∀ x : Waiter, s.attempt? e = some (x.site, x.caller, x.request)
      → x.caller ≠ w.caller := by
    intro x hattempt hcaller
    rw [hcaller] at hattempt
    exact h.unattempted fresh x.site x.request hattempt
  have hfate : w ∉ s.waiters → .leave w.caller ∈ past ++ [e]
      ∨ (w.caller, shared outcome w.request.fingerprint) ∈ t.replies := by
    intro hgone
    rcases h.fate with hstill | hleft | hreply
    · exact absurd hstill hgone
    · exact .inl (List.mem_append_left _ hleft)
    · exact .inr (hdeed.replies.subset hreply)
  refine ⟨hs.outcome?_keep hdeed.shift h.isOver, ?_, ?_⟩
  · intro x hx hcaller
    rcases hdeed.line.mem_waiters hx with hold | ⟨hattempt, -⟩
    · exact h.own x hold hcaller
    · exact absurd hcaller (hother x hattempt)
  · by_cases hw : w ∈ s.waiters
    · cases hdeed.line with
      | same waiters => exact .inl (by rw [waiters]; exact hw)
      | came y r event attempts slot waiters =>
          exact .inl (by rw [waiters]; exact List.mem_append_left _ hw)
      | again y event attempts slot waiters =>
          have hne := (hother y attempts).symm
          refine .inl ?_
          rw [waiters]
          exact List.mem_append_left _
            (List.mem_filter.mpr ⟨hw, by simpa using hne⟩)
      | gone caller event waiters =>
          by_cases hcaller : w.caller = caller
          · subst hcaller
            rcases event with rfl | rfl
            · -- it is woken, and the flight is over
              rw [wake_completed (find?_waiter hw h.own) h.isOver] at ht
              cases ht
              exact .inr (.inr (List.mem_append_right _
                (List.mem_cons_self ..)))
            · exact .inr (.inl (List.mem_append_right _
                (List.mem_cons_self ..)))
          · refine .inl ?_
            rw [waiters]
            exact List.mem_filter.mpr ⟨hw, by simpa using hcaller⟩
    · exact .inr (hfate hw)

theorem Served.run {w : Waiter} {outcome : Outcome} {events : List Event}
    (h : Served w outcome [] s) (hs : s.Coherent)
    (fresh : ∀ site r, .arrive site w.caller r ∉ events)
    (hr : s.run B events = some u) : Served w outcome events u := by
  refine run_induction (P := fun past u => Served w outcome past u) hr h ?_
  intro past e rest v v' hevents hv hP hstep
  refine hP.step (hs.run hv) (fun site r hevent => fresh site r ?_) hstep
  rw [hevents, ← hevent]
  exact List.mem_append_right _ (List.mem_cons_self ..)

-- ============================================================= the fan-out

/-- The result that a flight came to. -/
def resultOf : FlightEnd Outcome → Option Resolution
  | .completed outcome => outcome.toOption
  | .aborted => none

theorem eq_of_resultOf {how : FlightEnd Outcome} {result : Resolution}
    (h : resultOf how = some result) : how = .completed (.ok result) := by
  cases how with
  | aborted => cases h
  | completed outcome =>
      cases outcome with
      | error fault => cases h
      | ok r =>
          cases h
          rfl

/-- Two requests for different things wait under one key, while another
instance stores the result of the second one. -/
def overtaken : List Event :=
  [.arrive 0 0 { Sample.order with body := [9] }, .arrive 0 1 Sample.order,
    .arrive 1 2 Sample.order, .lead 1 0, .answer 0 (.ok Sample.created)]

end System

end OnceProxy.Proxy
