/-
Attempts: how often a request starts over, and what it comes to.

What happens to a caller is written down step by step: what its look-ups
read, which flights it joins, what it is replied (`note`). The diary of a
caller that stays has one of four forms (`Tale`). It begins with rounds in
which the look-up found nothing and the flight that was joined was aborted;
it goes on with a flight that is waited for, with the reply of a look-up or
of a completed flight, or, after the third aborted flight, with giving up.
One step turns a form into itself or the next (`Tale.step`); others have no
part in that, since nobody else moves a waiting caller or ends its wait, and
ends of flights stay what they are.

# Calls

The calls made for a key at an instance are bounded by a credit. A waiting
request is worth the flights it may still join, a leader that has not called
yet is worth its call. An arrival brings three, an attempt passes a part on to
the leader it appoints, and a call spends one (`Deed.credit_le`).
-/
import Mathlib.Algebra.Order.BigOperators.Group.List
import Mathlib.Algebra.Order.Group.Nat
import OnceProxy.Proofs.Proxy.FanOut
import OnceProxy.Proofs.Proxy.Lane
import OnceProxy.Proofs.Proxy.LiveKeys
import OnceProxy.Proofs.Proxy.Mandates

namespace OnceProxy.Proxy.System

open Http Origin Store

variable {σ : Type} {B : Backend σ} {s t u b : System σ} {e : Event}
  {site : Nat} {caller : CallerId} {r : Prepared} {policy : Policy}
  {joined : Nat}

-- ================================================================== notes

/-- What is written down of a caller. -/
inductive Note where
  /-- Its look-up has read this. -/
  | looked (found : Except StoreError (Option Entry))
  /-- It has joined a flight, as the leader of a new one or not. -/
  | joined (flight : FlightId) (leads : Bool)
  /-- It was replied to. -/
  | replied (x : Except ProxyError Replay)
  deriving DecidableEq

/-- The replies that a step gives a caller. -/
def heard (caller : CallerId) (s t : System σ) : List Note :=
  ((t.replies.drop s.replies.length).filter (·.1 = caller)).map fun p =>
    .replied p.2

/-- What a step means to a caller. -/
def note (B : Backend σ) (caller : CallerId) (s : System σ) (e : Event)
    (t : System σ) : List Note :=
  (match s.attempt? e with
    | some (_, c, r) =>
      if c = caller then
        .looked (s.converse B (Cache.get r.fingerprint.entryKey)).1
          :: (t.waiters.filter (·.caller = caller)).map fun w =>
            .joined w.flight (decide (s.leaders.length < t.leaders.length))
      else []
    | none => [])
  ++ heard caller s t

theorem heard_nothing (h : t.replies = s.replies) : heard caller s t = [] := by
  unfold heard
  rw [h, List.drop_length]
  rfl

theorem heard_last {c : CallerId} {x : Except ProxyError Replay}
    (h : t.replies = s.replies ++ [(c, x)]) :
    heard caller s t = if c = caller then [.replied x] else [] := by
  unfold heard
  rw [h, List.drop_left]
  by_cases hc : c = caller
  · simp [hc]
  · simp [hc]

/-- A reply that no attempt has led to. -/
theorem note_told {x : Except ProxyError Replay}
    (quiet : s.attempt? e = none)
    (h : t.replies = s.replies ++ [(caller, x)]) :
    note B caller s e t = [.replied x] := by
  unfold note
  simp only [quiet, List.nil_append]
  rw [heard_last h, if_pos rfl]

/-- Only its own arrival and its own waking mean anything to a caller with a
key. -/
theorem Deed.note_nil (h : Deed B s e t) (harrival : e.arrival? ≠ some caller)
    (hwake : e ≠ .wake caller) (keyed : ∀ g ∈ s.passers, g.caller ≠ caller) :
    note B caller s e t = [] := by
  have hheard : heard caller s t = [] := by
    rcases h.lastReply with hsame | ⟨c, x, hlast, hto⟩
    · exact heard_nothing hsame
    · rw [heard_last hlast, if_neg]
      rintro rfl
      rcases hto with hto | ⟨hto, -⟩ | ⟨g, hg, hto⟩
      · exact harrival hto
      · exact hwake hto
      · exact keyed g hg hto
  have hquiet : ∀ p, s.attempt? e = some p → p.2.1 ≠ caller := by
    rintro ⟨n, c, r⟩ hp rfl
    rcases attempt?_spec hp with ⟨q, i, key, rfl, -⟩ | ⟨w, rfl, -⟩
    · exact harrival rfl
    · exact hwake rfl
  unfold note
  rw [hheard, List.append_nil]
  cases hattempt : s.attempt? e with
  | none => rfl
  | some p => exact if_neg (hquiet p hattempt)

-- ============================================================= an attempt

/-- An attempt is a look-up, and a reply or a flight that is joined. -/
theorem Try.outline (h : Try B b caller site r policy joined t) :
    (∃ x, (b.lookup B r policy).1 = some x
      ∧ t.replies = b.replies ++ [(caller, x)] ∧ t.waiters = b.waiters)
    ∨ (b.lookup B r policy).1 = none ∧ t.replies = b.replies
      ∧ ∃ flight, t.waiters
        = b.waiters ++ [⟨caller, site, r, policy, flight, joined + 1⟩] := by
  cases h with
  | answered x st m found => exact .inl ⟨x, by rw [found], rfl, rfl⟩
  | followed id st m m' missed taken =>
      exact .inr ⟨by rw [missed], rfl, id, rfl⟩
  | led v st m m' missed there free =>
      exact .inr ⟨by rw [missed], rfl, v.nextId, rfl⟩

/-- A look-up has no reply only if it has read that there is no live entry. -/
theorem replyTo_eq_none {found : Except StoreError (Option Entry)}
    {fp : Fingerprint} (h : replyTo found fp = none) : found = .ok none := by
  rcases found with fault | _ | entry
  · cases h
  · rfl
  · cases h

/-- What an attempt means to its caller. -/
theorem Try.note_cases (h : Try B b caller site r policy joined t)
    (attempts : s.attempt? e = some (site, caller, r))
    (hb : b = s ∨ b = s.dropWaiter caller)
    (free : ∀ w ∈ b.waiters, w.caller ≠ caller) :
    (∃ found x, replyTo found r.fingerprint = some x
      ∧ note B caller s e t = [.looked found, .replied x]
      ∧ t.waiters = b.waiters)
    ∨ ∃ flight leads, note B caller s e t
        = [.looked (.ok none), .joined flight leads]
      ∧ t.waiters
        = b.waiters ++ [⟨caller, site, r, policy, flight, joined + 1⟩] := by
  have hsame : (b.converse B (Cache.get r.fingerprint.entryKey)).1
      = (s.converse B (Cache.get r.fingerprint.entryKey)).1
      ∧ b.replies = s.replies := by
    rcases hb with rfl | rfl
    · exact ⟨rfl, rfl⟩
    · exact ⟨rfl, rfl⟩
  have hlook := lookup_reply (B := B) b r policy
  rw [hsame.1] at hlook
  have hnobody : b.waiters.filter (·.caller = caller) = [] :=
    List.filter_eq_nil_iff.mpr fun w hw => by simpa using free w hw
  unfold System.note
  simp only [attempts, if_true]
  rcases h.outline with ⟨x, hx, hreplies, hwaiters⟩
    | ⟨hnone, hreplies, flight, hwaiters⟩
  · refine .inl ⟨_, x, hlook.symm.trans hx, ?_, hwaiters⟩
    rw [heard_last (hsame.2 ▸ hreplies), hwaiters, hnobody, if_pos rfl]
    rfl
  · refine .inr ⟨flight, decide (s.leaders.length < t.leaders.length), ?_,
      hwaiters⟩
    rw [replyTo_eq_none (hlook.symm.trans hnone),
      heard_nothing (hreplies.trans hsame.2), hwaiters, List.filter_append,
      hnobody]
    simp

-- =============================================================== the tale

/-- What is written down of rounds that came to nothing but a flight. -/
def rounds (flights : List (FlightId × Bool)) : List Note :=
  flights.flatMap fun f => [.looked (.ok none), .joined f.1 f.2]

/-- All these flights of an instance have been aborted. -/
def Aborted (s : System σ) (site : Nat) (flights : List (FlightId × Bool)) :
    Prop :=
  ∀ f ∈ flights, s.outcome? site f.1 = some .aborted

/-- The error of a caller that gives up. -/
def givenUp : Except ProxyError Replay :=
  .error (.originUnavailable (.leadersAborted maxLeadershipAttempts))

/-- How a request can stand, by what is written down of its caller. -/
inductive Tale (s : System σ) (site : Nat) (caller : CallerId)
    (r : Prepared) : List Note → Prop where
  /-- It waits for a flight. -/
  | waits (before : List (FlightId × Bool)) (last : FlightId × Bool)
      (w : Waiter) (few : before.length < maxLeadershipAttempts)
      (aborted : Aborted s site before) (waiting : w ∈ s.waiters)
      (own : w.caller = caller ∧ w.site = site ∧ w.request = r)
      (flight : w.flight = last.1) (count : w.joined = before.length + 1) :
      Tale s site caller r (rounds (before ++ [last]))
  /-- A look-up had a reply. -/
  | told (before : List (FlightId × Bool))
      (found : Except StoreError (Option Entry))
      (x : Except ProxyError Replay)
      (few : before.length < maxLeadershipAttempts)
      (aborted : Aborted s site before)
      (reply : replyTo found r.fingerprint = some x)
      (gone : ∀ w ∈ s.waiters, w.caller ≠ caller) :
      Tale s site caller r (rounds before ++ [.looked found, .replied x])
  /-- The flight that was joined last has completed. -/
  | settled (before : List (FlightId × Bool)) (last : FlightId × Bool)
      (outcome : Outcome) (few : before.length < maxLeadershipAttempts)
      (aborted : Aborted s site before)
      (isOver : s.outcome? site last.1 = some (.completed outcome))
      (gone : ∀ w ∈ s.waiters, w.caller ≠ caller) :
      Tale s site caller r (rounds (before ++ [last])
        ++ [.replied (settle outcome r.fingerprint)])
  /-- As many flights as may be have been aborted. -/
  | exhausted (flights : List (FlightId × Bool))
      (all : flights.length = maxLeadershipAttempts)
      (aborted : Aborted s site flights)
      (gone : ∀ w ∈ s.waiters, w.caller ≠ caller) :
      Tale s site caller r (rounds flights ++ [.replied givenUp])

theorem rounds_concat (before : List (FlightId × Bool))
    (last : FlightId × Bool) : rounds (before ++ [last])
      = rounds before ++ [.looked (.ok none), .joined last.1 last.2] := by
  simp [rounds]

theorem Aborted.keep {flights : List (FlightId × Bool)}
    (h : Aborted s site flights) (hs : s.Coherent) (hshift : Shift B s e t) :
    Aborted t site flights :=
  fun f hf => hs.outcome?_keep hshift (h f hf)

/-- An attempt after some rounds: its caller is told, or waits for one flight
more. -/
theorem tale_of_try (before : List (FlightId × Bool))
    (h : Try B b caller site r policy before.length t)
    (attempts : s.attempt? e = some (site, caller, r))
    (hb : b = s ∨ b = s.dropWaiter caller)
    (free : ∀ w ∈ b.waiters, w.caller ≠ caller)
    (few : before.length < maxLeadershipAttempts)
    (aborted : Aborted t site before) :
    Tale t site caller r (rounds before ++ note B caller s e t) := by
  rcases h.note_cases attempts hb free with ⟨found, x, hreply, hnote, hwaiters⟩
    | ⟨flight, leads, hnote, hwaiters⟩
  · rw [hnote]
    exact .told before found x few aborted hreply (hwaiters ▸ free)
  · rw [hnote, ← rounds_concat before (flight, leads)]
    refine .waits before (flight, leads)
      ⟨caller, site, r, policy, flight, before.length + 1⟩ few aborted ?_
      ⟨rfl, rfl, rfl⟩ rfl rfl
    rw [hwaiters]
    exact List.mem_append_right _ (List.mem_singleton_self _)

/-- Those who wait under a number, unless their request arrives, is woken or
goes away. -/
theorem Line.others (h : Line s e t) (harrival : e.arrival? ≠ some caller)
    (hwake : e ≠ .wake caller) (hleave : e ≠ .leave caller) {w : Waiter}
    (hw : w.caller = caller) : w ∈ t.waiters ↔ w ∈ s.waiters := by
  cases h with
  | same waiters => rw [waiters]
  | gone c event waiters =>
      have hne : w.caller ≠ c := by
        rw [hw]
        rintro rfl
        exact event.elim hwake hleave
      rw [waiters, List.mem_filter]
      simp [hne]
  | came o q event attempts slot waiters =>
      have hne : w ≠ o := by
        rintro rfl
        rw [event, hw] at harrival
        exact harrival rfl
      rw [waiters]
      simp [hne]
  | again o event attempts slot waiters =>
      have hne : w.caller ≠ o.caller := by
        rintro heq
        rw [event, ← heq, hw] at hwake
        exact hwake rfl
      rw [waiters]
      simp only [List.mem_append, List.mem_filter, List.mem_singleton]
      constructor
      · rintro (hin | rfl)
        · exact hin.1
        · exact absurd rfl hne
      · intro hin
        exact .inl ⟨hin, by simpa using hne⟩

/-- A step that leaves a caller alone leaves its tale as it is. -/
theorem Tale.calm {notes : List Note} (h : Tale s site caller r notes)
    (hs : s.Coherent) (hshift : Shift B s e t)
    (same : ∀ w : Waiter, w.caller = caller →
      (w ∈ t.waiters ↔ w ∈ s.waiters)) : Tale t site caller r notes := by
  have hgone : (∀ w ∈ s.waiters, w.caller ≠ caller) →
      ∀ w ∈ t.waiters, w.caller ≠ caller :=
    fun hgone w hw hcaller => hgone w ((same w hcaller).mp hw) hcaller
  cases h with
  | waits before last w few aborted waiting own flight count =>
      exact .waits before last w few (aborted.keep hs hshift)
        ((same w own.1).mpr waiting) own flight count
  | told before found x few aborted reply gone =>
      exact .told before found x few (aborted.keep hs hshift) reply (hgone gone)
  | settled before last outcome few aborted isOver gone =>
      exact .settled before last outcome few (aborted.keep hs hshift)
        (hs.outcome?_keep hshift isOver) (hgone gone)
  | exhausted flights all aborted gone =>
      exact .exhausted flights all (aborted.keep hs hshift) (hgone gone)

/-- The waking of a caller that has waited for some flights. -/
theorem Tale.woken {before : List (FlightId × Bool)} {last : FlightId × Bool}
    {w : Waiter} (hs : s.Coherent)
    (hdeed : Deed B s (.wake w.caller) t)
    (waits : s.waiters.find? (·.caller = w.caller) = some w)
    (few : before.length < maxLeadershipAttempts)
    (aborted : Aborted s w.site before) (flight : w.flight = last.1)
    (count : w.joined = before.length + 1) :
    Tale t w.site w.caller w.request
      (rounds (before ++ [last]) ++ note B w.caller s (.wake w.caller) t) := by
  have hshift := hdeed.shift
  have hlength : (before ++ [last]).length = w.joined := by
    rw [List.length_append, List.length_singleton, count]
  have hgone : ∀ x ∈ (s.dropWaiter w.caller).waiters, x.caller ≠ w.caller :=
    fun x hx => by simpa using (List.mem_filter.mp hx).2
  have hall : s.outcome? w.site w.flight = some .aborted →
      Aborted t w.site (before ++ [last]) := by
    intro hover f hf
    rcases List.mem_append.mp hf with hf | hf
    · exact aborted.keep hs hshift f hf
    · obtain rfl := List.mem_singleton.mp hf
      rw [← flight]
      exact hs.outcome?_keep hshift hover
  obtain ⟨o, hcaller, waits', hcases⟩ := hdeed.wake_cases
  obtain rfl : w = o := Option.some.inj (waits.symm.trans (hcaller ▸ waits'))
  rcases hcases with ⟨outcome, isOver, rfl⟩ | ⟨isOver, more, attempt⟩
    | ⟨isOver, noMore, rfl⟩
  · have hquiet : s.attempt? (.wake w.caller) = none := by
      unfold attempt?
      simp only [waits, Option.bind_eq_bind, Option.bind_some, isOver]
    rw [note_told hquiet rfl]
    exact .settled before last outcome few (aborted.keep hs hshift)
      (flight ▸ hs.outcome?_keep hshift isOver) hgone
  · rw [← hlength] at attempt more
    exact tale_of_try (before ++ [last]) attempt
      (attempt?_wake waits isOver (hlength ▸ more)) (.inr rfl) hgone more
      (hall isOver)
  · have hquiet : s.attempt? (.wake w.caller) = none := by
      unfold attempt?
      simp only [waits, Option.bind_eq_bind, Option.bind_some, isOver,
        if_neg (Nat.not_lt.mpr noMore)]
    rw [note_told hquiet rfl]
    refine .exhausted (before ++ [last]) ?_ (hall isOver) hgone
    omega

/-- One step more of a caller that stays. -/
theorem Tale.step {notes : List Note} {past : List Event}
    (h : Tale s site caller r notes) (staffed : s.Staffed past)
    (hdeed : Deed B s e t) (harrival : e.arrival? ≠ some caller)
    (stays : e ≠ .leave caller) (keyed : ∀ g ∈ s.passers, g.caller ≠ caller) :
    Tale t site caller r (notes ++ note B caller s e t) := by
  by_cases hwake : e = .wake caller
  · subst hwake
    cases h with
    | waits before last w few aborted waiting own flight count =>
        obtain ⟨rfl, rfl, rfl⟩ := own
        exact .woken staffed.coherent hdeed
          (find?_waiter waiting (staffed.queue.own waiting)) few aborted flight
          count
    | told | settled | exhausted =>
        next gone =>
        obtain ⟨o, hcaller, waits, -⟩ := hdeed.wake_cases
        exact absurd hcaller (gone o (List.mem_of_find?_eq_some waits))
  · rw [hdeed.note_nil harrival hwake keyed, List.append_nil]
    exact h.calm staffed.coherent hdeed.shift fun w hw =>
      hdeed.line.others harrival hwake stays hw

/-- The tale begins with the arrival. -/
theorem tale_of_arrival {past : List Event} {q : Incoming}
    {key : IdempotencyKey} (staffed : s.Staffed past)
    (fresh : caller ∉ past.filterMap Event.arrival?) (keyed : q.HasKey key)
    (ht : s.step B (.arrive site caller q) = some t) :
    Tale t site caller (q.prepare key)
      (note B caller s (.arrive site caller q) t) := by
  have hfree : ∀ w ∈ s.waiters, w.caller ≠ caller := by
    rintro w hw rfl
    exact fresh (staffed.queue.arrived w hw)
  cases step_deed ht with
  | refused site caller q i fault there bad =>
      rw [keyed.ofRequest] at bad
      cases bad
  | passed site caller q i there keyless =>
      rw [keyed.ofRequest] at keyless
      cases keyless
  | attempted site caller q i key' t there keyed' attempt =>
      obtain rfl : key = key' :=
        keyed.unique (Incoming.hasKey_of_ofRequest keyed')
      exact tale_of_try [] attempt
        (attempt?_arrive there keyed' caller) (.inl rfl) hfree (by decide)
        (fun f hf => absurd hf List.not_mem_nil)
  | ended e l how st m close => cases close

/-- The whole tale of a caller that stays. -/
theorem tale_of_run {wall : Int} {store : σ} {policies : List Policy}
    {past more : List Event} {q : Incoming} {key : IdempotencyKey}
    (numbered : Numbered (past ++ .arrive site caller q :: more))
    (hs : (start wall store policies).run B past = some s)
    (keyed : q.HasKey key) (stays : .leave caller ∉ more)
    (hr : s.run B (.arrive site caller q :: more) = some u) :
    Tale u site caller (q.prepare key)
      (noted B (note B caller) s (.arrive site caller q :: more)) := by
  obtain ⟨t, ht, hmore⟩ := run_cons hr
  refine run_induction (P := fun front v => Tale v site caller (q.prepare key)
    (noted B (note B caller) s (.arrive site caller q :: front))) hmore ?_ ?_
  · rw [noted_cons ht]
    show Tale t site caller _ (_ ++ [])
    rw [List.append_nil]
    exact tale_of_arrival (staffed_run numbered.of_append hs) numbered.not_mem
      keyed ht
  · intro front e rest v w hsplit hv hfront hstep
    have hto : s.run B (.arrive site caller q :: front) = some v := by
      show (s.step B _).bind (·.run B front) = _
      rw [ht]
      exact hv
    have hall : Numbered ((past ++ .arrive site caller q :: front)
        ++ e :: rest) := by
      rw [hsplit] at numbered
      simpa using numbered
    have hstaffed : v.Staffed (past ++ .arrive site caller q :: front) :=
      staffed_run hall.of_append (by rw [run_append, hs]; exact hto)
    have hin : .arrive site caller q ∈ past ++ .arrive site caller q :: front :=
      List.mem_append_right _ (List.mem_cons_self ..)
    rw [← List.cons_append, noted_snoc hto hstep]
    refine hfront.step hstaffed (step_deed hstep) (fun harrival => ?_)
      (fun hleave => stays ?_) fun g hg hcaller => ?_
    · cases e with
      | arrive n c q' =>
          cases harrival
          exact hall.not_mem (List.mem_filterMap.mpr ⟨_, hin, rfl⟩)
      | _ => cases harrival
    · rw [hsplit, ← hleave]
      exact List.mem_append_right _ (List.mem_cons_self ..)
    · obtain ⟨n, q', hq', hnone⟩ := hstaffed.traced.passers g hg
      rw [hcaller] at hq'
      obtain rfl := hall.of_append.request_unique hin hq'
      obtain ⟨raw, hraw, -⟩ := keyed
      rw [hnone] at hraw
      cases hraw

-- ============================================================== giving up

/-- No flight has ended with the error of a caller that gives up. -/
def Untired (s : System σ) : Prop :=
  ∀ site id times, s.outcome? site id
    ≠ some (.completed (.error (.originUnavailable (.leadersAborted times))))

theorem classify_error {status : Status} {fault : ProxyError}
    (h : classify status policy = .error fault) :
    fault = .unauthorized (.refusedByOrigin status)
      ∨ fault = .originUnavailable (.notFinal status) := by
  unfold classify at h
  split at h
  · cases h
  · split at h
    · cases h
      exact .inl rfl
    · cases h
      exact .inr rfl

theorem resolve_untired (l : Leader) (answer : Reply) (times : Nat) :
    (s.resolve B l answer).1
      ≠ .error (.originUnavailable (.leadersAborted times)) := by
  cases answer with
  | error fault => rintro ⟨⟩
  | ok response =>
      unfold resolve
      dsimp only
      cases hclass : classify response.status l.policy with
      | error fault =>
          intro hfault
          rcases classify_error hclass with rfl | rfl
          · cases hfault
          · cases hfault
      | ok final =>
          dsimp only
          generalize converse _ B _ = put
          obtain ⟨fault | entry | entry, st⟩ := put
          · rintro ⟨⟩
          · rintro ⟨⟩
          · rintro ⟨⟩

/-- Leaders do not give up. -/
theorem Close.untired {l : Leader} {how : FlightEnd Outcome} {st : σ}
    {m : Metrics} (h : Close B s e l how st m) (times : Nat) : how
      ≠ .completed (.error (.originUnavailable (.leadersAborted times))) := by
  cases h with
  | answered l c answer outcome st m leads waits inTime result =>
      rintro hhow
      obtain rfl := FlightEnd.completed.inj hhow
      exact resolve_untired l answer times (congrArg Prod.fst result)
  | failed | found | late | died => rintro ⟨⟩

theorem untired_run {wall : Int} {store : σ} {policies : List Policy}
    {events : List Event}
    (hr : (start wall store policies).run B events = some u) : u.Untired := by
  have h : u.Coherent ∧ u.Untired := by
    refine run_induction (P := fun _ v => v.Coherent ∧ v.Untired) hr
      ⟨coherent_start .., fun site id times h => ?_⟩ ?_
    · rw [outcome?_start] at h
      cases h
    · intro past e rest v w _ _ hv hstep
      have hdeed := step_deed hstep
      refine ⟨hv.1.shift hdeed.shift, fun site id times hover => ?_⟩
      rcases hv.1.outcome?_shift hdeed.shift with
        hsame | ⟨l, how, m, hclose, -, hends⟩
      · exact hv.2 site id times (hsame site id ▸ hover)
      · rw [hends] at hover
        by_cases hit : site = l.site ∧ id = l.guard.id
        · rw [if_pos hit] at hover
          exact hclose.untired times (Option.some.inj hover)
        · rw [if_neg hit] at hover
          exact hv.2 site id times hover
  exact h.2

/-- Nor does anyone who takes part in a flight because of its outcome. -/
theorem settle_untired {outcome : Outcome} {fp : Fingerprint} {times : Nat}
    (h : settle outcome fp
      = .error (.originUnavailable (.leadersAborted times))) :
    outcome = .error (.originUnavailable (.leadersAborted times)) := by
  rw [settle_eq_shared] at h
  unfold shared at h
  cases outcome with
  | error fault => exact congrArg _ (Except.error.inj h)
  | ok result =>
      dsimp only at h
      split at h <;> cases h

-- ============================================================= the summary

/-- The flights that were joined, and which of them the caller led. -/
def boarded (notes : List Note) : List (FlightId × Bool) :=
  notes.filterMap fun
    | .joined flight leads => some (flight, leads)
    | _ => none

theorem boarded_rounds (flights : List (FlightId × Bool))
    (notes : List Note) :
    boarded (rounds flights ++ notes) = flights ++ boarded notes := by
  induction flights with
  | nil => rfl
  | cons f flights ih =>
      show f :: boarded (rounds flights ++ notes) = _
      rw [ih]
      rfl

/-- No reply is given in rounds. -/
theorem mem_of_mem_rounds (flights : List (FlightId × Bool))
    {notes : List Note} {x : Except ProxyError Replay}
    (h : .replied x ∈ rounds flights ++ notes) : .replied x ∈ notes := by
  rcases List.mem_append.mp h with hin | hin
  · obtain ⟨f, -, hf⟩ := List.mem_flatMap.mp hin
    simp at hf
  · exact hin

/-- A caller joins three flights at most, and gives up exactly if all three
were aborted. -/
theorem Tale.summary {notes : List Note} (h : Tale s site caller r notes)
    (hs : s.Untired) :
    (boarded notes).length ≤ 3
    ∧ ∀ x, .replied x ∈ notes → (x = givenUp
      ↔ (boarded notes).length = 3 ∧ Aborted s site (boarded notes)) := by
  have hthree : maxLeadershipAttempts = 3 := rfl
  cases h with
  | waits before last w few aborted waiting own flight count =>
      rw [← List.append_nil (rounds _), boarded_rounds]
      refine ⟨?_, fun x hx =>
        absurd (mem_of_mem_rounds (before ++ [last]) hx) List.not_mem_nil⟩
      simp only [boarded, List.filterMap_nil, List.append_nil,
        List.length_append, List.length_singleton]
      omega
  | told before found x few aborted reply gone =>
      rw [boarded_rounds]
      have hlength : (before ++ boarded [.looked found, .replied x]).length
          < 3 := by
        rw [hthree] at few
        simpa [boarded] using few
      refine ⟨Nat.le_of_lt hlength, fun y hy => ?_⟩
      obtain rfl : y = x := by simpa using mem_of_mem_rounds _ hy
      refine ⟨fun hup => ?_, fun hall => absurd hall.1 (Nat.ne_of_lt hlength)⟩
      subst hup
      rcases found with fault | _ | entry
      · cases reply
      · cases reply
      · unfold replyTo recalled at reply
        dsimp only at reply
        split at reply <;> cases reply
  | settled before last outcome few aborted isOver gone =>
      rw [boarded_rounds]
      have hlength : (before ++ [last] ++ boarded [.replied (settle outcome
          r.fingerprint)]).length ≤ 3 := by
        simp only [boarded, List.filterMap_cons, List.filterMap_nil,
          List.append_nil, List.length_append, List.length_singleton]
        omega
      refine ⟨hlength, fun y hy => ?_⟩
      obtain rfl : y = settle outcome r.fingerprint := by
        simpa using mem_of_mem_rounds _ hy
      constructor
      · intro hup
        rw [settle_untired hup] at isOver
        exact absurd isOver (hs site last.1 _)
      · rintro ⟨-, hall⟩
        have hlast := hall last (by simp)
        rw [isOver] at hlast
        cases hlast
  | exhausted flights all aborted gone =>
      have hflights : boarded (rounds flights ++ [.replied givenUp])
          = flights := by
        rw [boarded_rounds]
        exact List.append_nil flights
      rw [hflights]
      refine ⟨Nat.le_of_eq all, fun y hy => ?_⟩
      obtain rfl : y = givenUp := by
        simpa using mem_of_mem_rounds _ hy
      exact ⟨fun _ => ⟨all, aborted⟩, fun _ => rfl⟩

-- ================================================================= calls

variable {key : IdempotencyKey}

/-- The calls that a step makes for a key at an instance. -/
def callsFor (site : Nat) (key : IdempotencyKey) (s : System σ) (e : Event)
    (t : System σ) : List Outbound :=
  match e with
  | .lead n flight =>
    if n = site ∧ (s.findLeader n flight).any (·.request.key = key) then
      t.calls.drop s.calls.length
    else []
  | _ => []

/-- The requests with a key that arrive at an instance. -/
def arrivals (site : Nat) (key : IdempotencyKey) (events : List Event) : Nat :=
  events.countP fun
    | .arrive n _ q => decide (n = site ∧ q.HasKey key)
    | _ => false

/-- The flights that a waiting request may still join, if it has the key. -/
def worth (site : Nat) (key : IdempotencyKey) (w : Waiter) : Nat :=
  if w.site = site ∧ w.request.key = key then maxLeadershipAttempts - w.joined
  else 0

/-- A leader for the key that has not called yet. -/
def idles (site : Nat) (key : IdempotencyKey) (l : Leader) : Bool :=
  decide (l.site = site ∧ l.request.key = key ∧ l.waiting = none)

/-- The calls that may still be made for those at work. -/
def credit (site : Nat) (key : IdempotencyKey) (s : System σ) : Nat :=
  (s.waiters.map (worth site key)).sum + s.leaders.countP (idles site key)

/-- Taking some of a list away leaves less. -/
theorem sum_filter_le {α : Type} (f : α → Nat) (keep : α → Bool)
    (l : List α) : ((l.filter keep).map f).sum ≤ (l.map f).sum :=
  (List.filter_sublist.map f).sum_le_sum fun _ _ => Nat.zero_le _

/-- Taking one away in particular leaves less by what it was worth. -/
theorem sum_filter_add_le {α : Type} (f : α → Nat) (keep : α → Bool)
    {l : List α} {x : α} (hx : x ∈ l) (hout : keep x = false) :
    ((l.filter keep).map f).sum + f x ≤ (l.map f).sum := by
  obtain ⟨front, behind, rfl⟩ := List.append_of_mem hx
  have hfront := sum_filter_le f keep front
  have hbehind := sum_filter_le f keep behind
  rw [List.filter_append, List.filter_cons_of_neg (by simp [hout])]
  simp only [List.map_append, List.map_cons, List.sum_append, List.sum_cons]
  omega

/-- Of those that are counted, one is not counted any more. -/
theorem countP_add_one_le {α : Type} {p q : α → Bool} {l : List α}
    (hpq : ∀ x ∈ l, p x = true → q x = true) {x : α} (hx : x ∈ l)
    (hp : p x = false) (hq : q x = true) : l.countP p + 1 ≤ l.countP q := by
  obtain ⟨front, behind, rfl⟩ := List.append_of_mem hx
  have hfront : front.countP p ≤ front.countP q :=
    List.countP_mono_left fun y hy => hpq y (List.mem_append_left _ hy)
  have hbehind : behind.countP p ≤ behind.countP q :=
    List.countP_mono_left fun y hy =>
      hpq y (List.mem_append_right _ (List.mem_cons_of_mem _ hy))
  rw [List.countP_append, List.countP_append,
    List.countP_cons_of_neg (by simp [hp]), List.countP_cons_of_pos hq]
  omega

/-- An attempt for a key brings no more than the flights that its request may
join. -/
theorem Try.credit_le (h : Try B b caller site r policy joined t)
    (few : joined < maxLeadershipAttempts) (n : Nat) (key : IdempotencyKey) :
    credit n key t ≤ credit n key b
      + if site = n ∧ r.key = key then maxLeadershipAttempts - joined else 0 := by
  unfold System.credit
  cases h with
  | answered x st m found => exact Nat.le_add_right _ _
  | followed id st m m' missed taken =>
      simp only [List.map_append, List.sum_append, List.map_singleton,
        List.sum_singleton, worth]
      split <;> omega
  | led v st m m' missed there free =>
      simp only [List.map_append, List.sum_append, List.map_singleton,
        List.sum_singleton, worth, List.countP_append, List.countP_singleton,
        idles]
      by_cases hown : site = n ∧ r.key = key
      · simp only [hown, and_self, if_true, decide_true]
        omega
      · simp [hown]

/-- Nobody is worth more for the leaving of a caller. -/
theorem credit_dropWaiter (s : System σ) (caller : CallerId) (site : Nat)
    (key : IdempotencyKey) :
    credit site key (s.dropWaiter caller) ≤ credit site key s :=
  Nat.add_le_add_right (sum_filter_le _ _ s.waiters) _

theorem credit_dropWaiter_add {w : Waiter} (hw : w ∈ s.waiters) (site : Nat)
    (key : IdempotencyKey) :
    credit site key (s.dropWaiter w.caller) + worth site key w
      ≤ credit site key s := by
  have hout := sum_filter_add_le (worth site key) (·.caller ≠ w.caller) hw
    (by simp)
  have hleft : (s.dropWaiter w.caller).waiters
      = s.waiters.filter (·.caller ≠ w.caller) := rfl
  have hleaders : (s.dropWaiter w.caller).leaders = s.leaders := rfl
  unfold System.credit
  rw [hleft, hleaders]
  omega

/-- A step that makes no call makes none for the key. -/
theorem callsFor_nil (h : t.calls = s.calls) : callsFor site key s e t = [] := by
  unfold callsFor
  cases e with
  | lead n flight =>
      dsimp only
      rw [h, List.drop_length]
      exact ite_self _
  | _ => rfl

/-- A leader that calls spends its call. -/
theorem countP_called {l : Leader} {c : OpenCall}
    (leads : s.findLeader l.site l.guard.id = some l) (idle : l.waiting = none)
    (site : Nat) (key : IdempotencyKey) :
    (s.leaders.map fun o =>
        if o.site = l.site && o.guard.id = l.guard.id then
          { o with waiting := some c }
        else o).countP (idles site key)
      + (if l.site = site ∧ l.request.key = key then 1 else 0)
      ≤ s.leaders.countP (idles site key) := by
  have hl := List.mem_of_find?_eq_some leads
  rw [List.countP_map]
  -- whoever still has to call after this had to before
  have hstill : ∀ o ∈ s.leaders, (idles site key ∘ fun o : Leader =>
      if o.site = l.site && o.guard.id = l.guard.id then
        { o with waiting := some c }
      else o) o = true → idles site key o = true := by
    intro o _ ho
    rw [Function.comp_apply] at ho
    split at ho
    · simp [idles] at ho
    · exact ho
  by_cases hown : l.site = site ∧ l.request.key = key
  · rw [if_pos hown]
    exact countP_add_one_le hstill hl (by simp [idles])
      (by simp [idles, hown, idle])
  · rw [if_neg hown]
    exact List.countP_mono_left hstill

/-- The step lemma: an arrival brings three, a call spends one, and nothing
else adds to the credit. -/
theorem Deed.credit_le (h : Deed B s e t) (site : Nat) (key : IdempotencyKey) :
    credit site key t + (callsFor site key s e t).length
      ≤ credit site key s + 3 * arrivals site key [e] := by
  cases h with
  | refused | passed | passerAnswered | passerLate | elapsed | advanced
  | policySet | swept => exact Nat.le_add_right _ _
  | settled w outcome waits isOver =>
      exact Nat.le_add_right_of_le (credit_dropWaiter s w.caller site key)
  | exhausted w waits isOver noMore =>
      exact Nat.le_add_right_of_le (credit_dropWaiter s w.caller site key)
  | left caller =>
      exact Nat.le_add_right_of_le (credit_dropWaiter s caller site key)
  | attempted n caller q i key' t there keyed attempt =>
      have hcredit := attempt.credit_le (by decide) site key
      refine Nat.le_trans hcredit (Nat.add_le_add_left ?_ _)
      by_cases hown : n = site ∧ key' = key
      · have hkey := Incoming.hasKey_of_ofRequest keyed
        rw [hown.2] at hkey
        have hin : arrivals site key [.arrive n caller q] = 1 := by
          simp [arrivals, hown.1, hkey]
        rw [hin]
        split <;> decide
      · exact Nat.le_trans (Nat.le_of_eq (if_neg hown)) (Nat.zero_le _)
  | retried w t waits isOver more attempt =>
      -- what the caller was worth pays for its attempt
      have hcredit := attempt.credit_le more site key
      exact Nat.le_trans hcredit (Nat.le_add_right_of_le
        (credit_dropWaiter_add (List.mem_of_find?_eq_some waits) site key))
  | ended e l how st m close =>
      have hnone : callsFor site key s e
          ({ s with store := st, metrics := m }.finishFlight l how) = [] :=
        callsFor_nil rfl
      rw [hnone]
      have hless : (s.leaders.filter fun o =>
          !(o.site = l.site && o.guard = l.guard)).countP (idles site key)
          ≤ s.leaders.countP (idles site key) :=
        List.Sublist.countP_le List.filter_sublist
      exact Nat.le_add_right_of_le (Nat.add_le_add_left hless _)
  | called l st m leads idle look =>
      have hspent := countP_called (c := ⟨s.calls.length,
        s.elapsed + l.policy.originTimeout⟩) leads idle site key
      have hcalls : ∀ v : System σ, v.calls
            = s.calls ++ [l.request.outbound l.policy s.now] →
          (callsFor site key s (.lead l.site l.guard.id) v).length
            = if l.site = site ∧ l.request.key = key then 1 else 0 := by
        intro v hv
        unfold callsFor
        simp only [leads, hv, List.drop_left, Option.any_some,
          decide_eq_true_eq]
        split <;> rfl
      rw [hcalls _ rfl]
      refine Nat.le_add_right_of_le
        (Nat.le_trans (Nat.le_of_eq ?_) (Nat.add_le_add_left hspent _))
      exact Nat.add_assoc ..

/-- All calls for a key at an instance are paid by arrivals. -/
theorem calls_bounded {wall : Int} {store : σ} {policies : List Policy}
    {events : List Event}
    (hr : (start wall store policies).run B events = some u) (site : Nat)
    (key : IdempotencyKey) :
    (noted B (callsFor site key) (start wall store policies) events).length
      ≤ 3 * arrivals site key events := by
  have h := run_induction (P := fun past v => credit site key v
      + (noted B (callsFor site key) (start wall store policies) past).length
      ≤ 3 * arrivals site key past) hr (Nat.le_refl _) ?_
  · omega
  · intro past e rest v w _ hv hpast hstep
    have hspent := (step_deed hstep).credit_le site key
    rw [noted_snoc hv hstep, List.length_append]
    have hsplit : arrivals site key (past ++ [e])
        = arrivals site key past + arrivals site key [e] := by
      unfold arrivals
      exact List.countP_append
    omega

/-- No call is left out: each one that a run puts on record is that of a
request without key, or is made for a key at an instance. -/
theorem keyless_or_mem_callsFor {wall : Int} {store : σ}
    {policies : List Policy} {events : List Event}
    (hr : (start wall store policies).run B events = some u) {n : CallId}
    {o : Outbound} (ho : u.calls[n]? = some o) :
    (∃ site caller q p now, .arrive site caller q ∈ events ∧ q.key = none
      ∧ o = q.outbound p now)
      ∨ ∃ site key,
        o ∈ noted B (callsFor site key) (start wall store policies) events := by
  obtain ⟨past, e, rest, v, w, rfl, hv, hstep, -, hcalls⟩ :=
    madeIn_run hr (Nat.zero_le n) ho
  rcases (step_deed hstep).made hcalls with
    ⟨site, caller, q, i, rfl, -, hkey, rfl⟩ | ⟨l, leads, -, rfl, -⟩
  · exact .inl ⟨site, caller, q, i.policy, v.now, by simp,
      Incoming.key_eq_none_of_ofRequest hkey, rfl⟩
  · refine .inr ⟨l.site, l.request.key, mem_noted hv hstep ?_⟩
    simp [callsFor, leads, hcalls]

-- ============================================================ the theorem

/-- A request whose leaders die, one after the other, in the middle of their
calls. -/
def forsaken : List Event :=
  [.arrive 0 0 Sample.order, .lead 0 0, .crash 0 0, .wake 0, .lead 0 1,
    .crash 0 1, .wake 0, .lead 0 2, .crash 0 2, .wake 0]

end OnceProxy.Proxy.System
