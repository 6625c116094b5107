/-
Calls that end.

A call ends when the origin answers it or when it has taken too long; one that
nobody waits for any more never does (`Event.concluded?` says which event ends
which call). Along every run each call is waited for by one party at most, a
leader or a caller without key, and by nobody once it has ended (`Engaged`).
The callers need no numbers of their own for that. So no call ends twice, and
the calls that have ended can be counted by the events that ended them
(`Engaged.countP_ended`).
-/
import OnceProxy.Proofs.Proxy.Staff

namespace OnceProxy.Proxy

open Store

/-- The call that an event ends. -/
def Event.concluded? : Event → Option CallId
  | .answer call _ => some call
  | .timeout call => some call
  | _ => none

/-- The calls that a sequence of events ends. -/
def concluded (events : List Event) : List CallId := events.filterMap Event.concluded?

namespace System

variable {σ : Type} {B : Backend σ} {s t u : System σ} {e : Event} {closed : List CallId}
  {call : CallId}

-- =============================================================== awaiting

/-- A leader or a caller without key waits for the call. -/
def Awaits (s : System σ) (call : CallId) : Prop :=
  (∃ l ∈ s.leaders, ∃ c, l.waiting = some c ∧ c.call = call)
    ∨ ∃ p ∈ s.passers, p.waiting.call = call

/-- No two parties wait for one call, and nobody for one that has ended. -/
structure Engaged (s : System σ) (closed : List CallId) : Prop where
  dialled : s.Dialled
  placed : ∀ p ∈ s.passers, p.waiting.call < s.calls.length
  single : ∀ p ∈ s.passers, ∀ q ∈ s.passers, p.waiting.call = q.waiting.call → p = q
  apart : ∀ l ∈ s.leaders, ∀ c, l.waiting = some c →
    ∀ p ∈ s.passers, c.call ≠ p.waiting.call
  made : ∀ call ∈ closed, call < s.calls.length
  ended : ∀ call ∈ closed, ¬s.Awaits call
  nodup : closed.Nodup

theorem engaged_start (wall : Int) (store : σ) (policies : List Policy) :
    (start wall store policies).Engaged [] :=
  ⟨⟨fun _ hl => absurd hl List.not_mem_nil, fun _ hl => absurd hl List.not_mem_nil⟩,
    fun _ hp => absurd hp List.not_mem_nil, fun _ hp => absurd hp List.not_mem_nil,
    fun _ hl => absurd hl List.not_mem_nil, fun _ hc => absurd hc List.not_mem_nil,
    fun _ hc => absurd hc List.not_mem_nil, List.nodup_nil⟩

/-- A call that is waited for was waited for before, or has just been made. -/
theorem Deed.awaits (h : Deed B s e t) (hs : s.Coherent) (ht : t.Awaits call) :
    s.Awaits call ∨ call = s.calls.length ∧ s.calls.length < t.calls.length := by
  rcases ht with ⟨l, hl, c, hc, rfl⟩ | ⟨p, hp, rfl⟩
  · rcases h.mem_leaders hs hl with hold | ⟨hidle, -⟩ | ⟨m, -, -, -, rfl, hcalls⟩
    · exact .inl (.inl ⟨l, hold, c, hc, rfl⟩)
    · rw [hidle] at hc
      cases hc
    · cases hc
      exact .inr ⟨rfl, by simp [hcalls]⟩
  · rcases h.mem_passers hp with
      hold | ⟨-, -, -, -, -, -, -, hcall, hlen, -⟩
    · exact .inl (.inr ⟨p, hold, rfl⟩)
    · exact .inr ⟨hcall, by omega⟩

/-- A call that is waited for is on record. -/
theorem Engaged.awaits_lt (h : s.Engaged closed) (hcall : s.Awaits call) :
    call < s.calls.length := by
  rcases hcall with ⟨l, hl, c, hc, rfl⟩ | ⟨p, hp, rfl⟩
  · exact h.dialled.placed l hl c hc
  · exact h.placed p hp

-- ================================================================= ending

/-- The call of a leader's flight that ends is waited for by nobody else. -/
theorem Engaged.finish (h : s.Engaged closed) (hs : s.Coherent) {l : Leader} {c : OpenCall}
    (leads : s.leaderOf c.call = some l) (waits : l.waiting = some c)
    (how : FlightEnd Outcome) (st : σ) (m : Metrics) :
    s.Awaits c.call
      ∧ ¬(({ s with store := st, metrics := m } : System σ).finishFlight l how).Awaits
        c.call := by
  have hl : l ∈ s.leaders := List.mem_of_find?_eq_some leads
  refine ⟨.inl ⟨l, hl, c, waits, rfl⟩, ?_⟩
  rintro (⟨o, ho, d, hd, hcall⟩ | ⟨p, hp, hcall⟩)
  · obtain ⟨hold, hne⟩ := (hs.mem_leaders_finishFlight hl how).mp ho
    exact hne (h.dialled.apart o hold l hl d c hd waits hcall)
  · exact h.apart l hl c waits p hp hcall.symm

/-- So is the call of a caller without key. -/
theorem Engaged.dropPasser (h : s.Engaged closed) {p : Passer}
    (waits : s.passerOf p.waiting.call = some p)
    (keyless : s.leaderOf p.waiting.call = none) {t : System σ}
    (leaders : t.leaders = s.leaders)
    (passers : t.passers = s.passers.filter (·.caller ≠ p.caller)) :
    s.Awaits p.waiting.call ∧ ¬t.Awaits p.waiting.call := by
  have hp : p ∈ s.passers := List.mem_of_find?_eq_some waits
  refine ⟨.inr ⟨p, hp, rfl⟩, ?_⟩
  rintro (⟨l, hl, c, hc, hcall⟩ | ⟨q, hq, hcall⟩)
  · rw [leaders] at hl
    have hother := List.find?_eq_none.mp keyless l hl
    simp [hc, hcall] at hother
  · rw [passers] at hq
    obtain ⟨hold, hne⟩ := List.mem_filter.mp hq
    obtain rfl := h.single q hold p hp hcall
    simp at hne

/-- An event that ends a call finds someone who waits for it, and leaves
nobody. -/
theorem Engaged.concludes (h : s.Engaged closed) (hs : s.Coherent) (hdeed : Deed B s e t)
    (he : e.concluded? = some call) : s.Awaits call ∧ ¬t.Awaits call := by
  cases hdeed with
  | ended e l how st m close =>
      cases close with
      | answered l c r outcome st m leads waits inTime result =>
          cases he
          exact h.finish hs leads waits _ st m
      | late l c leads waits overdue =>
          cases he
          exact h.finish hs leads waits _ _ _
      | failed | found | died => cases he
  | passerAnswered m p answer waits keyless inTime =>
      cases he
      exact h.dropPasser waits keyless rfl rfl
  | passerLate m p waits keyless overdue =>
      cases he
      exact h.dropPasser waits keyless rfl rfl
  | refused | passed | attempted | called | settled | retried | exhausted | left | elapsed
  | advanced | policySet | swept => cases he

-- ==================================================================== runs

/-- Nobody waits after a step for a call that has ended by then. -/
theorem Engaged.ended_step (h : s.Engaged closed) (hs : s.Coherent) (hdeed : Deed B s e t) :
    ∀ call ∈ closed ++ e.concluded?.toList, call < s.calls.length ∧ ¬t.Awaits call := by
  intro call hin
  rcases List.mem_append.mp hin with hold | hnew
  · refine ⟨h.made call hold, fun hawaits => ?_⟩
    rcases hdeed.awaits hs hawaits with hbefore | ⟨hcall, -⟩
    · exact h.ended call hold hbefore
    · exact Nat.ne_of_lt (h.made call hold) hcall
  · obtain ⟨hbefore, hafter⟩ := h.concludes hs hdeed (Option.mem_toList.mp hnew)
    exact ⟨h.awaits_lt hbefore, hafter⟩

theorem Engaged.step (h : s.Engaged closed) (hs : s.Coherent) (hdeed : Deed B s e t) :
    t.Engaged (closed ++ e.concluded?.toList) := by
  have hlength := hdeed.calls.length_le
  have hended := h.ended_step hs hdeed
  refine ⟨h.dialled.step hs hdeed, ?placed, ?single, ?apart, ?made, ?ended, ?nodup⟩
  case placed =>
    intro p hp
    rcases hdeed.mem_passers hp with
      hold | ⟨-, -, -, -, -, -, -, hcall, hlen, -⟩
    · exact Nat.lt_of_lt_of_le (h.placed p hold) hlength
    · rw [hcall, hlen]
      exact Nat.lt_succ_self _
  case single =>
    intro p hp q hq hpq
    rcases hdeed.mem_passers hp with
      hold | ⟨-, -, -, -, -, -, -, hcall, -, -, hpassers⟩
    · rcases hdeed.mem_passers hq with
        hold' | ⟨-, -, -, -, -, -, -, hcall, -⟩
      · exact h.single p hold q hold' hpq
      · exact absurd (hpq.trans hcall) (Nat.ne_of_lt (h.placed p hold))
    · rw [hpassers] at hq
      rcases List.mem_append.mp hq with hold | hnew
      · exact absurd (hpq.symm.trans hcall) (Nat.ne_of_lt (h.placed q hold))
      · exact (List.mem_singleton.mp hnew).symm
  case apart =>
    intro l hl c hc p hp hcall
    rcases hdeed.mem_passers hp with
      hold | ⟨-, -, -, -, -, -, -, hnew, -, hleaders, -⟩
    · rcases hdeed.mem_leaders hs hl with
        hold' | ⟨hidle, -⟩ | ⟨m, -, -, -, rfl, -⟩
      · exact h.apart l hold' c hc p hold hcall
      · rw [hidle] at hc
        cases hc
      · cases hc
        exact Nat.ne_of_gt (h.placed p hold) hcall
    · rw [hleaders] at hl
      exact Nat.ne_of_lt (h.dialled.placed l hl c hc) (hcall.trans hnew)
  case made =>
    intro call hin
    exact Nat.lt_of_lt_of_le (hended call hin).1 hlength
  case ended =>
    intro call hin
    exact (hended call hin).2
  case nodup =>
    rw [List.nodup_append]
    refine ⟨h.nodup, ?_, ?_⟩
    · cases e.concluded? with
      | none => exact List.nodup_nil
      | some call => exact List.nodup_singleton call
    · intro a ha b hb
      rintro rfl
      -- what ends now was waited for, so it had not ended before
      exact h.ended a ha (h.concludes hs hdeed (Option.mem_toList.mp hb)).1

theorem concluded_snoc (events : List Event) (e : Event) :
    concluded (events ++ [e]) = concluded events ++ e.concluded?.toList := by
  unfold concluded
  rw [List.filterMap_append]
  cases he : e.concluded? <;> simp [he]

theorem engaged_run {wall : Int} {store : σ} {policies : List Policy} {events : List Event}
    (hr : (start wall store policies).run B events = some u) :
    u.Engaged (concluded events) := by
  refine run_induction (P := fun past u => u.Engaged (concluded past)) hr
    (engaged_start wall store policies) ?_
  intro past e rest v w _ hv hengaged hstep
  rw [concluded_snoc]
  exact hengaged.step ((coherent_start wall store policies).run hv) (step_deed hstep)

/-- The calls on record that have ended are as many as the events that ended
one. -/
theorem Engaged.countP_ended (h : s.Engaged closed) :
    (List.range s.calls.length).countP (· ∈ closed) = closed.length := by
  have hperm : ((List.range s.calls.length).filter (· ∈ closed)).Perm closed := by
    rw [List.perm_ext_iff_of_nodup (List.nodup_range.filter _) h.nodup]
    intro call
    rw [List.mem_filter, List.mem_range, decide_eq_true_eq]
    exact and_iff_right_of_imp (h.made call)
  rw [List.countP_eq_length_filter]
  exact hperm.length_eq

end System

end OnceProxy.Proxy
