/-
Who is given a result, and who a conflict.

A caller is given a result in three ways (`Grant`): the store has it, the
caller's flight has it, or the request has no key and the origin answered
it. Where the store or the flight has the result of another operation
instead, the reply is a conflict.
-/
import OnceProxy.Proofs.Proxy.Moves

namespace OnceProxy.Proxy.System

open Http Store

variable {s t : System MemoryStore} {e : Event} {caller : CallerId}

/-- How an event gives a caller a result. -/
inductive Grant (s : System MemoryStore) (e : Event) (caller : CallerId) :
    Replay → Prop where
  /-- The store has it. -/
  | hit (site : Nat) (r : Prepared) (found : Entry)
      (attempts : s.attempt? e = some (site, caller, r))
      (live : s.live? r.fingerprint.entryKey = some found)
      (own : found.answers r.fingerprint = true) :
      Grant s e caller (.ofEntry found true)
  /-- The caller's flight has it. -/
  | settled (w : Waiter) (result : Resolution)
      (event : e = .wake caller)
      (waits : s.waiters.find? (·.caller = caller) = some w)
      (isOver : s.outcome? w.site w.flight = some (.completed (.ok result)))
      (own : result.entry.answers w.request.fingerprint = true) :
      Grant s e caller (.ofEntry result.entry (!result.fresh))
  /-- The origin answered the caller's request, which has no key. -/
  | passed (p : Passer) (response : Response)
      (event : e = .answer p.waiting.call (.ok response))
      (waits : p ∈ s.passers) (whose : p.caller = caller) :
      Grant s e caller (.passThrough response)

/-- Every result that a caller is given is given in one of the three
ways. -/
theorem Move.grant (h : Move s e t) {x : Replay}
    (hx : t.replies = s.replies ++ [(caller, .ok x)]) :
    Grant s e caller x := by
  -- a request that is looked up finds it in the store
  have looked : ∀ {site who r}, s.attempt? e = some (site, who, r) →
      Grant s e caller x := by
    intro site who r attempts
    obtain ⟨policy, y, hlook, hreplies⟩ := h.lookedUp attempts
    rw [hreplies] at hx
    have hlast := List.append_cancel_left hx
    generalize t.store = st at hlook
    cases hlook with
    | missed missing => cases hlast
    | conflict entry found foreign => cases hlast
    | hit entry found own =>
        cases hlast
        exact .hit site r entry attempts found own
  cases h.deed with
  | attempted site who r i key t there keyed attempt =>
      exact looked (attempt?_arrive there keyed who)
  | retried w t waits isOver more attempt =>
      exact looked (attempt?_wake waits isOver more)
  | settled w outcome waits isOver =>
      have hlast := List.append_cancel_left hx
      injection hlast with hpair
      injection hpair with hcaller hreply
      subst hcaller
      cases outcome with
      | error fault => cases hreply
      | ok result =>
          unfold settle at hreply
          cases hown : result.entry.answers w.request.fingerprint with
          | true =>
              simp only [bind, Except.bind, hown, if_true] at hreply
              cases hreply
              exact .settled w result rfl waits isOver hown
          | false =>
              simp only [bind, Except.bind, hown] at hreply
              cases hreply
  | passerAnswered m p answer waits keyless inTime =>
      have hlast := List.append_cancel_left hx
      injection hlast with hpair
      injection hpair with hcaller hreply
      cases answer with
      | error fault => cases hreply
      | ok response =>
          cases hreply
          exact .passed p response rfl (List.mem_of_find?_eq_some waits)
            hcaller
  | refused | passerLate | exhausted =>
      cases List.append_cancel_left hx
  | passed | called | ended | left | elapsed | advanced | policySet
  | swept =>
      have hlen := congrArg List.length hx
      simp [finishFlight, updateFlights, leave, dropPasser] at hlen

/-- A request that finds the entry of another operation is a conflict. -/
theorem Move.conflict_of_live (h : Move s e t) {site : Nat} {r : Prepared}
    (hr : s.attempt? e = some (site, caller, r)) {entry : Entry}
    (hlive : s.live? r.fingerprint.entryKey = some entry)
    (hforeign : entry.answers r.fingerprint = false) :
    t.replies = s.replies ++ [(caller, .error .conflict)] := by
  obtain ⟨policy, x, hlook, hreplies⟩ := h.lookedUp hr
  generalize t.store = st at hlook
  cases hlook with
  | missed missing => cases hlive.symm.trans missing
  | hit e found own =>
      obtain rfl := Option.some.inj (hlive.symm.trans found)
      rw [hforeign] at own
      cases own
  | conflict e found foreign => exact hreplies

/-- So is a request whose flight has ended with such an entry. -/
theorem Move.conflict_of_over (h : Move s (.wake caller) t) {w : Waiter}
    (hw : s.waiters.find? (·.caller = caller) = some w)
    {result : Resolution}
    (hover : s.outcome? w.site w.flight = some (.completed (.ok result)))
    (hforeign : result.entry.answers w.request.fingerprint = false) :
    t.replies = s.replies ++ [(caller, .error .conflict)] := by
  obtain ⟨o, rfl, ho, hcase⟩ := h.deed.wake_cases
  obtain rfl := Option.some.inj (ho.symm.trans hw)
  rcases hcase with ⟨outcome, isOver, rfl⟩ | ⟨isOver, -⟩ | ⟨isOver, -⟩
  · rw [hover] at isOver
    cases isOver
    show s.replies ++ [(o.caller, settle (.ok result) _)] = _
    unfold settle
    simp only [bind, Except.bind, hforeign]
    rfl
  · rw [hover] at isOver
    cases isOver
  · rw [hover] at isOver
    cases isOver

end OnceProxy.Proxy.System
