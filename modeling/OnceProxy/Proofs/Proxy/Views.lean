/-
Views: what some of the events do not look at.

A view of a system (`System.view`) leaves out the waiting of some callers and
the replies to them, and puts other policies in force. Whoever is not woken
and does not arrive is served without a look at any of that, so an event does
the same to the view as to the system (`step_view`), up to what the view
leaves out. Two things are read off it: that callers go away is not seen by
the others (`Proofs/Proxy/Departures`), and an exchange of policies is seen by
arrivals only (`Proofs/Proxy/Exchanges`).

Most of what a system does commutes with taking the view. A reply does so
only up to another view, since it may go to a caller that is left out.
-/
import OnceProxy.Proofs.Proxy.Waiting

namespace OnceProxy.Proxy.System

open Store

variable {σ : Type} {B : Backend σ}

/-- The system but for the waiting of these callers and the replies to them,
with its policies changed. -/
def view (gone : CallerId → Bool) (f : Policy → Policy) (s : System σ) :
    System σ :=
  { s with
    instances := s.instances.map fun i => { i with policy := f i.policy }
    waiters := s.waiters.filter fun w => !gone w.caller
    replies := s.replies.filter fun p => !gone p.1 }

section Projection

variable (gone : CallerId → Bool) (f : Policy → Policy) (s : System σ)

theorem getElem?_view (site : Nat) :
    (s.view gone f).instances[site]?
      = (s.instances[site]?).map fun i => { i with policy := f i.policy } :=
  List.getElem?_map ..

theorem table?_view (site : Nat) :
    (s.view gone f).table? site = s.table? site := by
  unfold table?
  rw [getElem?_view]
  cases s.instances[site]? <;> rfl

-- ================================================================= parts

theorem updateFlights_view (site : Nat)
    (g : FlightTable Outcome → FlightTable Outcome) :
    (s.view gone f).updateFlights site g
      = (s.updateFlights site g).view gone f := by
  have hinstances :
      (s.instances.map fun i => { i with policy := f i.policy }).modify site
        (fun i => { i with flights := g i.flights })
      = (s.instances.modify site fun i => { i with flights := g i.flights }).map
        fun i => { i with policy := f i.policy } := by
    refine List.ext_getElem? fun n => ?_
    rw [List.getElem?_modify, List.getElem?_map, List.getElem?_map,
      List.getElem?_modify]
    cases s.instances[n]? with
    | none => rfl
    | some i => by_cases hn : site = n <;> simp [hn]
  unfold updateFlights view
  rw [hinstances]

theorem finishFlight_view (l : Leader) (how : FlightEnd Outcome) :
    (s.view gone f).finishFlight l how
      = (s.finishFlight l how).view gone f := by
  unfold finishFlight
  rw [updateFlights_view]
  rfl

theorem dropWaiter_view (caller : CallerId) :
    (s.view gone f).dropWaiter caller = (s.dropWaiter caller).view gone f := by
  unfold dropWaiter view
  simp only [List.filter_filter, Bool.and_comm]

theorem leave_view (caller : CallerId) :
    (s.view gone f).leave caller = (s.leave caller).view gone f := by
  unfold leave dropPasser view
  simp only [List.filter_filter, Bool.and_comm]

theorem converse_view (d : Dialogue α) :
    (s.view gone f).converse B d
      = ((s.converse B d).1, (s.converse B d).2.view gone f) :=
  rfl

theorem lookup_view (r : Prepared) (policy : Policy) :
    (s.view gone f).lookup B r policy
      = ((s.lookup B r policy).1, (s.lookup B r policy).2.view gone f) := by
  unfold lookup
  rw [converse_view]
  rcases s.converse B (Cache.get r.fingerprint.entryKey) with
    ⟨_ | _ | entry, v⟩
  · rfl
  · rfl
  · dsimp only
    split
    · cases policy.refreshOnReplay <;> rfl
    · rfl

theorem resolve_view (l : Leader) (r : Origin.Reply) :
    (s.view gone f).resolve B l r
      = ((s.resolve B l r).1, (s.resolve B l r).2.view gone f) := by
  unfold resolve
  cases r with
  | error e => rfl
  | ok response =>
      dsimp only
      cases classify response.status l.policy with
      | error e => rfl
      | ok done =>
          -- the reply is counted first, which the view does not notice
          rw [show (s.view gone f).bump
            (.originCalls (.status response.status.code))
            = (s.bump (.originCalls (.status response.status.code))).view
              gone f from rfl]
          generalize s.bump (.originCalls (.status response.status.code)) = b
          dsimp only
          rw [converse_view, show (b.view gone f).now = b.now from rfl]
          generalize b.converse B _ = found
          rcases found with ⟨_ | _ | _, v⟩ <;> rfl

theorem lead_view (site : Nat) (flight : FlightId) :
    (s.view gone f).lead B site flight
      = (s.lead B site flight).map (·.view gone f) := by
  unfold lead
  rw [show (s.view gone f).findLeader site flight
    = s.findLeader site flight from rfl]
  cases s.findLeader site flight with
  | none => rfl
  | some l =>
      simp only [Option.bind_eq_bind, Option.bind_some]
      rw [converse_view]
      split
      · rfl
      · generalize s.converse B (Cache.get l.guard.key) = found
        rcases found with ⟨_ | _ | _, v⟩
        · exact congrArg some (finishFlight_view ..)
        · rfl
        · exact congrArg some (finishFlight_view ..)

theorem crash_view (site : Nat) (flight : FlightId) :
    (s.view gone f).crash site flight
      = (s.crash site flight).map (·.view gone f) := by
  unfold crash
  rw [show (s.view gone f).findLeader site flight
    = s.findLeader site flight from rfl]
  cases s.findLeader site flight with
  | none => rfl
  | some l => exact congrArg some (finishFlight_view ..)

-- ================================================================ replies

variable {f} (idem : ∀ p, f (f p) = f p)

include idem

theorem view_view : (s.view gone f).view gone f = s.view gone f := by
  unfold view
  simp only [List.map_map, Function.comp_def, idem, List.filter_filter,
    Bool.and_self]

theorem map_view_view (x : Option (System σ)) :
    (x.map (·.view gone f)).map (·.view gone f) = x.map (·.view gone f) := by
  rw [Option.map_map]
  exact Option.map_congr fun t _ => view_view gone t idem

theorem reply_view (caller : CallerId) (x : Except ProxyError Replay) :
    ((s.view gone f).reply caller x).view gone f
      = (s.reply caller x).view gone f := by
  unfold reply view
  simp only [List.map_map, Function.comp_def, idem, List.filter_append,
    List.filter_filter, Bool.and_self]

theorem attempt_view (caller : CallerId) (site : Nat) (r : Prepared)
    (policy : Policy) (joined : Nat) :
    ((s.view gone f).attempt B caller site r policy joined).view gone f
      = (s.attempt B caller site r policy joined).view gone f := by
  unfold attempt
  rw [lookup_view]
  rcases s.lookup B r policy with ⟨_ | answer, v⟩
  · dsimp only
    rw [getElem?_view]
    cases v.instances[site]? with
    | none => exact view_view gone v idem
    | some i =>
        simp only [Option.map_some, updateFlights_view]
        unfold view updateFlights bump
        simp only [List.map_map, Function.comp_def, idem, List.filter_append,
          List.filter_filter, Bool.and_self]
  · exact reply_view gone v idem caller answer

-- ================================================================= events

theorem answer_view (call : CallId) (r : Origin.Reply) :
    ((s.view gone f).answer B call r).map (·.view gone f)
      = (s.answer B call r).map (·.view gone f) := by
  unfold System.answer
  rw [show (s.view gone f).leaderOf call = s.leaderOf call from rfl,
    show (s.view gone f).passerOf call = s.passerOf call from rfl]
  cases s.leaderOf call with
  | some l =>
      dsimp only
      rw [show (s.view gone f).elapsed = s.elapsed from rfl]
      split
      · rw [resolve_view]
        generalize s.resolve B l r = result
        dsimp only
        rw [finishFlight_view]
        exact congrArg some (view_view gone _ idem)
      · rfl
  | none =>
      cases s.passerOf call with
      | none => rfl
      | some p =>
          simp only [Option.bind_eq_bind, Option.bind_some]
          rw [show (s.view gone f).elapsed = s.elapsed from rfl]
          split
          · cases r with
            | error e =>
                exact congrArg some (reply_view gone
                  ((s.dropPasser p.caller).bump _) idem p.caller _)
            | ok response =>
                exact congrArg some (reply_view gone
                  ((s.dropPasser p.caller).bump _) idem p.caller _)
          · rfl

theorem timeout_view (call : CallId) :
    ((s.view gone f).timeout call).map (·.view gone f)
      = (s.timeout call).map (·.view gone f) := by
  unfold timeout
  rw [show (s.view gone f).leaderOf call = s.leaderOf call from rfl,
    show (s.view gone f).passerOf call = s.passerOf call from rfl,
    show (s.view gone f).elapsed = s.elapsed from rfl]
  cases s.leaderOf call with
  | some l =>
      dsimp only
      split
      · rw [show (s.view gone f).bump (.originCalls .timeout)
          = (s.bump (.originCalls .timeout)).view gone f from rfl,
          finishFlight_view]
        exact congrArg some (view_view gone _ idem)
      · rfl
  | none =>
      cases s.passerOf call with
      | none => rfl
      | some p =>
          simp only [Option.bind_eq_bind, Option.bind_some]
          split
          · exact congrArg some (reply_view gone
              ((s.dropPasser p.caller).bump _) idem p.caller _)
          · rfl

variable {gone}

omit idem in
/-- Someone else is found among those that wait. -/
theorem find?_waiters_view {caller : CallerId}
    (other : gone caller = false) :
    (s.view gone f).waiters.find? (·.caller = caller)
      = s.waiters.find? (·.caller = caller) := by
  unfold view
  rw [List.find?_filter]
  congr 1
  funext w
  by_cases hw : w.caller = caller
  · simp [hw, other]
  · simp [hw]

theorem wake_view {caller : CallerId} (other : gone caller = false) :
    ((s.view gone f).wake B caller).map (·.view gone f)
      = (s.wake B caller).map (·.view gone f) := by
  unfold wake
  rw [find?_waiters_view s other]
  cases s.waiters.find? (·.caller = caller) with
  | none => rfl
  | some w =>
      simp only [Option.bind_eq_bind, Option.bind_some, getElem?_view]
      have hreply : ∀ x, (((s.view gone f).dropWaiter caller).reply caller
          x).view gone f = ((s.dropWaiter caller).reply caller x).view gone f
          := by
        intro x
        rw [dropWaiter_view, reply_view gone _ idem]
      cases s.instances[w.site]? with
      | none => rfl
      | some i =>
          simp only [Option.map_some, Option.bind_some]
          cases i.flights.outcome? w.flight with
          | none => rfl
          | some how =>
              cases how with
              | completed outcome => exact congrArg some (hreply _)
              | aborted =>
                  simp only [Option.bind_some]
                  split
                  · show some ((((s.view gone f).dropWaiter caller).attempt B
                      caller w.site w.request w.policy w.joined).view gone f)
                      = _
                    rw [dropWaiter_view, attempt_view gone _ idem]
                    rfl
                  · exact congrArg some (hreply _)

theorem setPolicy_view (site : Nat) (policy : Policy) :
    ((s.view gone f).step B (.setPolicy site policy)).map (·.view gone f)
      = (s.step B (.setPolicy site policy)).map (·.view gone f) := by
  have hinstances :
      ((s.instances.map fun i => { i with policy := f i.policy }).modify site
          fun i => { i with policy := policy }).map
        (fun i => { i with policy := f i.policy })
      = (s.instances.modify site fun i => { i with policy := policy }).map
        fun i => { i with policy := f i.policy } := by
    refine List.ext_getElem? fun n => ?_
    rw [List.getElem?_map, List.getElem?_map, List.getElem?_modify,
      List.getElem?_modify, List.getElem?_map]
    cases s.instances[n]? with
    | none => rfl
    | some i => by_cases hn : site = n <;> simp [hn, idem]
  refine congrArg some ?_
  unfold view
  simp only [hinstances, List.filter_filter, Bool.and_self]

omit idem in
/-- An arrival reads the policy in force, and nothing else that a view
changes. -/
theorem arrive_view (site : Nat) (caller : CallerId) (r : Incoming) :
    ((s.view gone id).arrive B site caller r).map (·.view gone id)
      = (s.arrive B site caller r).map (·.view gone id) := by
  have idem : ∀ p : Policy, id (id p) = id p := fun _ => rfl
  unfold arrive
  rw [getElem?_view]
  cases s.instances[site]? with
  | none => rfl
  | some i =>
      simp only [Option.map_some, Option.bind_eq_bind, Option.bind_some, id]
      cases IdempotencyKey.ofRequest r.method r.key i.policy.requireKey with
      | error fault => exact congrArg some (reply_view gone s idem ..)
      | ok found =>
          cases found with
          | some key => exact congrArg some (attempt_view gone s idem ..)
          | none =>
              let call := s.startCall i.policy (r.outbound i.policy s.now)
              exact congrArg some (view_view gone { call.2 with
                passers := s.passers ++ [⟨caller, i.policy, call.1⟩] } idem)

/-- An event does the same to a view of the system, up to what the view
leaves out: unless it wakes one of the callers that are left out, and as
long as the policies are as they were when a request arrives. -/
theorem step_view {e : Event} (blind : e.arrival? = none ∨ f = id)
    (other : ∀ caller, e = .wake caller → gone caller = false) :
    ((s.view gone f).step B e).map (·.view gone f)
      = (s.step B e).map (·.view gone f) := by
  cases e with
  | arrive site caller r =>
      rcases blind with hnone | rfl
      · cases hnone
      · exact arrive_view s site caller r
  | lead site flight =>
      show ((s.view gone f).lead B site flight).map _ = _
      rw [lead_view]
      exact map_view_view gone idem _
  | answer call r => exact answer_view gone s idem call r
  | timeout call => exact timeout_view gone s idem call
  | crash site flight =>
      show ((s.view gone f).crash site flight).map _ = _
      rw [crash_view]
      exact map_view_view gone idem _
  | wake caller => exact wake_view s idem (other caller rfl)
  | leave caller =>
      show (some ((s.view gone f).leave caller)).map _ = _
      rw [leave_view]
      exact map_view_view gone idem (some (s.leave caller))
  | elapse ms =>
      exact map_view_view gone idem (some { s with elapsed := s.elapsed + ms })
  | advance ms =>
      exact map_view_view gone idem (some { s with wall := s.wall + ms })
  | setPolicy site policy => exact setPolicy_view s idem site policy
  | sweep => exact map_view_view gone idem (s.step B .sweep)

end Projection

/-- How an event ends a flight is seen in every view. -/
theorem Close.view {s : System σ} {e : Event} {l : Leader}
    {how : FlightEnd Outcome} {st : σ} {m : Metrics}
    (h : Close B s e l how st m) (gone : CallerId → Bool)
    (f : Policy → Policy) : Close B (s.view gone f) e l how st m := by
  cases h with
  | failed l e st m leads idle look =>
      refine .failed l e st m leads idle ?_
      rw [converse_view, look]
      rfl
  | found l e st m leads idle look =>
      refine .found l e st m leads idle ?_
      rw [converse_view, look]
      rfl
  | answered l c r outcome st m leads waits inTime result =>
      refine .answered l c r outcome st m leads waits inTime ?_
      rw [resolve_view, result]
      rfl
  | late l c leads waits overdue => exact .late l c leads waits overdue
  | died l leads => exact .died l leads

end OnceProxy.Proxy.System
