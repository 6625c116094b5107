/-
Isolation: what the requests with one key see does not depend on others.

Two runs that agree in the key's acts agree in everything that the key's
requests see, since the acts alone determine the lane of the key
(`lane_run`). What other requests do between the acts, with other keys or
without any, makes no difference: their flights, the versions they use up,
the calls they make. Nor can it hinder the acts: what can happen after one
run can happen after the other (`Watched.enabled`), so that the others can be
taken out of a run altogether, or put in.

Of the hash it is assumed that no other key in the run has the key's digest
(`Uncollided`), and of the origin that its answers to calls for the key
follow from the call and the earlier calls for the key (`AnsweredBy`). What
the origin answers to others is free.
-/
import OnceProxy.Proofs.Fingerprint
import OnceProxy.Proofs.Proxy.LaneSteps

namespace OnceProxy.Proxy

open Crypto Origin Store

-- ==================================================================== acts

namespace System

/-- The acts of a key's requests in a run, and what concerns everyone. -/
def acts (key : IdempotencyKey) (s₀ : System MemoryStore)
    (events : List Event) : List Lane.Act :=
  noted MemoryStore.backend (fun s e _ => (act? key s e).toList) s₀ events

/-- The places of the calls for a key in a run. -/
def places (key : IdempotencyKey) (s₀ : System MemoryStore)
    (events : List Event) : List CallId :=
  noted MemoryStore.backend (callAt key) s₀ events

/-- No call is left out: each one that a run puts on record is that of a
request without key, or has its place among those for a key. -/
theorem keyless_or_mem_places {s₀ u : System MemoryStore}
    {events : List Event} (hr : s₀.run MemoryStore.backend events = some u)
    {n : CallId} (later : s₀.calls.length ≤ n) (hn : n < u.calls.length) :
    (∃ site caller q p now, .arrive site caller q ∈ events ∧ q.key = none
      ∧ u.calls[n]? = some (q.outbound p now))
      ∨ ∃ key, n ∈ places key s₀ events := by
  have ho := List.getElem?_eq_getElem hn
  obtain ⟨past, e, rest, v, w, rfl, hv, hstep, rfl, hcalls⟩ :=
    madeIn_run hr later ho
  rcases (step_deed hstep).made hcalls with
    ⟨site, caller, q, i, rfl, -, hkey, hsent⟩ | ⟨l, leads, -, rfl, -⟩
  · rw [hsent] at ho
    exact .inl ⟨site, caller, q, i.policy, v.now, by simp,
      Incoming.key_eq_none_of_ofRequest hkey, ho⟩
  · refine .inr ⟨l.request.key, mem_noted hv hstep ?_⟩
    rw [callAt_lead leads rfl (by simp [hcalls])]
    exact List.mem_singleton_self _

-- ============================================================ assumptions

/-- The octet strings hashed for the addresses of the entries in a run. -/
def HashedAddress (events : List Event) (x : Octets) : Prop :=
  ∃ site caller q k, .arrive site caller q ∈ events ∧ q.HasKey k
    ∧ x = Fingerprint.addressInput k

/-- None of them has the digest of the key's, but that one. -/
def Uncollided (key : IdempotencyKey) (events : List Event) : Prop :=
  ∀ x, HashedAddress events x →
    keccak256 x = keccak256 (Fingerprint.addressInput key) →
    x = Fingerprint.addressInput key

theorem Uncollided.apart {key : IdempotencyKey} {events : List Event}
    (h : Uncollided key events) : Apart key events := by
  intro site caller q k hin hkey haddress
  exact Fingerprint.addressInput_inj
    (h _ ⟨site, caller, q, k, hin, hkey, rfl⟩ haddress)

/-- It is enough to look at less. -/
theorem Uncollided.mono {key : IdempotencyKey} {events part : List Event}
    (h : Uncollided key events)
    (hpart : ∀ site caller q, .arrive site caller q ∈ part →
      .arrive site caller q ∈ events) : Uncollided key part := by
  rintro x ⟨site, caller, q, k, hin, hkey, rfl⟩ heq
  exact h _ ⟨site, caller, q, k, hpart _ _ _ hin, hkey, rfl⟩ heq

/-- A run in which callers have numbers of their own and no other key has
the digest of this one; every answer to a call for the key is the one that
the origin gives to this call after the earlier calls for the key. -/
structure Course (origin : List Outbound → Outbound → Origin.Reply)
    (key : IdempotencyKey) (s₀ : System MemoryStore) (events : List Event)
    (u : System MemoryStore) : Prop where
  run : s₀.run MemoryStore.backend events = some u
  numbered : Numbered events
  uncollided : Uncollided key events
  answered : ∀ past e rest v, events = past ++ e :: rest →
    s₀.run MemoryStore.backend past = some v →
    Faithful origin key (places key s₀ past) v e

section Courses

variable {origin : List Outbound → Outbound → Origin.Reply}
  {key : IdempotencyKey} {s₀ u v : System MemoryStore}
  {events rest : List Event} {e : Event}

theorem Course.of_append (h : Course origin key s₀ (events ++ rest) u)
    (hv : s₀.run MemoryStore.backend events = some v) :
    Course origin key s₀ events v := by
  refine ⟨hv, h.numbered.of_append, h.uncollided.mono fun site caller q hin =>
    List.mem_append_left _ hin, ?_⟩
  rintro past e later w rfl hw
  exact h.answered past e (later ++ rest) w (by simp) hw

theorem Course.snoc (h : Course origin key s₀ events u)
    (hv : u.step MemoryStore.backend e = some v)
    (hn : Numbered (events ++ [e])) (free : Uncollided key (events ++ [e]))
    (faithful : Faithful origin key (places key s₀ events) u e) :
    Course origin key s₀ (events ++ [e]) v := by
  refine ⟨run_concat h.run hv, hn, free, ?_⟩
  intro past f rest w hsplit hw
  rcases List.eq_nil_or_concat rest with rfl | ⟨rest, g, rfl⟩
  · obtain ⟨rfl, hlast⟩ := List.append_inj' hsplit rfl
    cases hlast
    rw [h.run] at hw
    cases hw
    exact faithful
  · rw [List.concat_eq_append, ← List.cons_append,
      ← List.append_assoc] at hsplit
    obtain ⟨hevents, -⟩ := List.append_inj' hsplit rfl
    exact h.answered past f rest w hevents hw

end Courses

-- ================================================================= acting

section Acting

variable {origin : List Outbound → Outbound → Origin.Reply}
  {key : IdempotencyKey} {past : List Event} {mine : List CallId}
  {s : System MemoryStore} {e : Event} {a : Lane.Act}

/-- Requests that arrive for the key do so in both views. -/
theorem act?_arrival (h : act? key s e = some a) :
    e.arrival? = a.arrival? := by
  cases e with
  | arrive site caller q =>
      simp only [act?, Option.ite_none_right_eq_some, Option.some.injEq] at h
      rw [← h.2]
      rfl
  | leave caller =>
      simp only [act?, Option.ite_none_right_eq_some, Option.some.injEq] at h
      rw [← h.2]
      rfl
  | lead | answer | timeout | crash | wake =>
      obtain ⟨x, -, h⟩ := Option.bind_eq_some_iff.mp h
      simp only [Option.ite_none_right_eq_some, Option.some.injEq] at h
      rw [← h.2]
      rfl
  | elapse | advance | setPolicy | sweep =>
      cases h
      rfl

theorem act?_arrive {site : Nat} {caller : CallerId} {r : Prepared}
    (h : act? key s e = some (.arrive site caller r)) :
    ∃ q, e = .arrive site caller q ∧ q.HasKey key ∧ r = q.prepare key := by
  have harrival := act?_arrival h
  cases e with
  | arrive n c q =>
      simp only [act?, Option.ite_none_right_eq_some, Option.some.injEq,
        Lane.Act.arrive.injEq] at h
      obtain ⟨hkey, rfl, rfl, rfl⟩ := h
      exact ⟨q, rfl, hkey, rfl⟩
  | _ => cases harrival

/-- A request with the key itself adds nothing to worry about. -/
theorem Uncollided.snoc {events : List Event} (h : Uncollided key events)
    (ha : act? key s e = some a) : Uncollided key (events ++ [e]) := by
  rintro x ⟨site, caller, q, k, hin, hkey, rfl⟩ heq
  rcases List.mem_append.mp hin with hold | hnew
  · exact h _ ⟨site, caller, q, k, hold, hkey, rfl⟩ heq
  · rw [← List.mem_singleton.mp hnew] at ha
    simp only [act?, Option.ite_none_right_eq_some] at ha
    rw [hkey.unique ha.1]

theorem faithful_of_ne (h : ∀ call r, e ≠ .answer call r) :
    Faithful origin key mine s e :=
  fun call r _ _ hevent _ _ _ => absurd hevent (h call r)

/-- An act that the lane allows can happen in the system, perhaps under other
numbers than elsewhere. -/
theorem Watched.enabled (h : Watched key past mine s)
    {s' : System MemoryStore} (ha : act? key s' e = some a) {w : Lane}
    (hnext : (lane key past mine s).next origin a = some w) :
    ∃ f t, s.step MemoryStore.backend f = some t ∧ act? key s f = some a
      ∧ Faithful origin key mine s f := by
  cases a with
  | arrive site caller r =>
      obtain ⟨q, rfl, hkey, rfl⟩ := act?_arrive ha
      obtain ⟨policy, hpolicy, -⟩ := Option.bind_eq_some_iff.mp hnext
      obtain ⟨i, hi, -⟩ := Option.map_eq_some_iff.mp
        ((List.getElem?_map ..).symm.trans hpolicy)
      obtain ⟨t, ht⟩ := exists_step_arrive (B := MemoryStore.backend) hi
        caller q
      exact ⟨.arrive site caller q, t, ht, if_pos hkey, faithful_of_ne (by simp)⟩
  | lead site =>
      obtain ⟨v, hv, hidle⟩ := Option.bind_eq_some_iff.mp hnext
      obtain ⟨l, hl, own, rfl, rfl⟩ := Watched.of_leaderAt hv
      have idle : l.waiting = none := by
        cases hwaits : l.waiting with
        | none => rfl
        | some c =>
            simp [laneLeader, hwaits] at hidle
      have leads := h.staffed.coherent.findLeader hl
      obtain ⟨t, ht⟩ := exists_step_lead (B := MemoryStore.backend) leads idle
      exact ⟨_, t, ht, by rw [act?_lead leads, if_pos own],
        faithful_of_ne (by simp)⟩
  | answer site =>
      obtain ⟨v, hv, hcall⟩ := Option.bind_eq_some_iff.mp hnext
      obtain ⟨l, hl, own, rfl, rfl⟩ := Watched.of_leaderAt hv
      obtain ⟨d, hd, htime⟩ := Option.bind_eq_some_iff.mp hcall
      obtain ⟨c, waits, rfl⟩ := Option.map_eq_some_iff.mp hd
      have inTime : s.elapsed ≤ c.deadline := by
        split at htime
        · next hle => exact hle
        · cases htime
      have leads := h.staffed.dialled.leaderOf hl waits
      have hplaced := h.staffed.dialled.placed l hl c waits
      have hsent := List.getElem?_eq_getElem hplaced
      obtain ⟨t, ht⟩ := exists_step_answer (B := MemoryStore.backend) leads
        waits inTime (origin ((mine.filter (· < c.call)).filterMap
          (s.calls[·]?)) s.calls[c.call])
      refine ⟨_, t, ht, ?_, ?_⟩
      · rw [act?_answer leads, if_pos own]
      · rintro call r m sent hevent hleads' - hsent'
        cases hevent
        rw [hsent] at hsent'
        cases hsent'
        rfl
  | timeout site =>
      obtain ⟨v, hv, hcall⟩ := Option.bind_eq_some_iff.mp hnext
      obtain ⟨l, hl, own, rfl, rfl⟩ := Watched.of_leaderAt hv
      obtain ⟨d, hd, htime⟩ := Option.bind_eq_some_iff.mp hcall
      obtain ⟨c, waits, rfl⟩ := Option.map_eq_some_iff.mp hd
      have overdue : c.deadline ≤ s.elapsed := by
        split at htime
        · next hle => exact hle
        · cases htime
      have leads := h.staffed.dialled.leaderOf hl waits
      obtain ⟨t, ht⟩ := exists_step_timeout (B := MemoryStore.backend) leads
        waits overdue
      exact ⟨_, t, ht, by rw [act?_timeout leads, if_pos own],
        faithful_of_ne (by simp)⟩
  | crash site =>
      obtain ⟨v, hv, -⟩ := Option.bind_eq_some_iff.mp hnext
      obtain ⟨l, hl, own, rfl, rfl⟩ := Watched.of_leaderAt hv
      have leads := h.staffed.coherent.findLeader hl
      obtain ⟨t, ht⟩ := exists_step_crash (B := MemoryStore.backend) leads
      exact ⟨_, t, ht, by rw [act?_crash leads, if_pos own],
        faithful_of_ne (by simp)⟩
  | wake caller =>
      obtain ⟨v, hv, hwake⟩ := Option.bind_eq_some_iff.mp hnext
      obtain ⟨how, isOver, -⟩ := Option.bind_eq_some_iff.mp hwake
      have hcaller := List.find?_some hv
      obtain ⟨x, hx, rfl⟩ := List.mem_map.mp (List.mem_of_find?_eq_some hv)
      obtain rfl : x.caller = caller := of_decide_eq_true hcaller
      obtain ⟨hx, own⟩ := List.mem_filter.mp hx
      have waits := find?_waiter hx (h.staffed.queue.own hx)
      obtain ⟨t, ht⟩ := exists_step_wake (B := MemoryStore.backend) waits
        isOver
      exact ⟨_, t, ht, by rw [act?_wake waits, if_pos (of_decide_eq_true own)],
        faithful_of_ne (by simp)⟩
  | leave caller =>
      have hany : (lane key past mine s).waiters.any (·.caller = caller)
          = true := by
        by_contra hnone
        rw [show (lane key past mine s).next origin (.leave caller) = none
          from if_neg hnone] at hnext
        cases hnext
      obtain ⟨x, hx, own, hcaller⟩ := Watched.any_waiter_iff.mp hany
      refine ⟨.leave caller, _, rfl, if_pos ?_, faithful_of_ne (by simp)⟩
      exact List.any_eq_true.mpr ⟨x, hx, by simp [own, hcaller]⟩
  | elapse ms => exact ⟨.elapse ms, _, rfl, rfl, faithful_of_ne (by simp)⟩
  | advance ms => exact ⟨.advance ms, _, rfl, rfl, faithful_of_ne (by simp)⟩
  | setPolicy site policy =>
      exact ⟨.setPolicy site policy, _, rfl, rfl, faithful_of_ne (by simp)⟩
  | sweep => exact ⟨.sweep, _, rfl, rfl, faithful_of_ne (by simp)⟩

end Acting

-- ================================================================== runs

section Runs

variable {origin : List Outbound → Outbound → Origin.Reply}
  {key : IdempotencyKey} {wall : Int} {store : MemoryStore}
  {policies : List Policy} {events : List Event} {u : System MemoryStore}

theorem watched_start (distinct : store.Distinct) (key : IdempotencyKey) :
    Watched key [] [] (start wall store policies) :=
  ⟨staffed_start wall store policies, distinct, List.nodup_nil,
    fun _ _ _ _ hin => absurd hin List.not_mem_nil, .nil,
    fun _ hc => absurd hc List.not_mem_nil,
    fun _ hl => absurd hl List.not_mem_nil⟩

/-- The acts of a run say what becomes of the lane. -/
theorem lane_run (distinct : store.Distinct)
    (h : Course origin key (start wall store policies) events u) :
    Watched key events (places key (start wall store policies) events) u
      ∧ (lane key [] [] (start wall store policies)).run origin
          (acts key (start wall store policies) events)
        = some (lane key events
          (places key (start wall store policies) events) u) := by
  refine run_induction (P := fun past v =>
    Watched key past (places key (start wall store policies) past) v
      ∧ (lane key [] [] (start wall store policies)).run origin
          (acts key (start wall store policies) past)
        = some (lane key past
          (places key (start wall store policies) past) v))
    h.run ⟨watched_start distinct key, rfl⟩ ?_
  rintro past e rest v w rfl hv ⟨hwatched, hlane⟩ hstep
  have hnow : Course origin key (start wall store policies) (past ++ [e])
      w := by
    rw [show past ++ e :: rest = (past ++ [e]) ++ rest by simp] at h
    exact h.of_append (run_concat hv hstep)
  have hfollow := (hwatched.before hnow.numbered hnow.uncollided.apart).lane_step
    (List.mem_append_right _ (List.mem_cons_self ..)) (step_deed hstep)
    (hnow.answered past e [] v rfl hv)
  rw [lane_before hwatched.staffed hnow.numbered] at hfollow
  rw [show places key (start wall store policies) (past ++ [e]) = _ from
      noted_snoc hv hstep,
    show acts key (start wall store policies) (past ++ [e]) = _ from
      noted_snoc hv hstep]
  exact ⟨hwatched.step hnow.numbered hnow.uncollided.apart hstep,
    Lane.run_snoc hlane hfollow⟩

/-- What the key does next after one run it can do after another one in
which it has done the same, and it is done as the key's. -/
theorem Course.continue (distinct : store.Distinct)
    {events' : List Event} {u' v : System MemoryStore} {e : Event}
    {a : Lane.Act}
    (h : Course origin key (start wall store policies) (events ++ [e]) v)
    (h' : Course origin key (start wall store policies) events' u')
    (hu : (start wall store policies).run MemoryStore.backend events
      = some u) (ha : act? key u e = some a)
    (same : acts key (start wall store policies) events'
      = acts key (start wall store policies) events)
    (fresh : ∀ caller, a.arrival? = some caller →
      caller ∉ events'.filterMap Event.arrival?) :
    ∃ f v', Course origin key (start wall store policies) (events' ++ [f]) v'
      ∧ act? key u' f = some a := by
  obtain ⟨-, hlane⟩ := lane_run distinct (h.of_append hu)
  obtain ⟨-, hnext⟩ := lane_run distinct h
  obtain ⟨hwatched, hlane'⟩ := lane_run distinct h'
  obtain ⟨w, hw, hstep⟩ := run_snoc h.run
  rw [hu] at hw
  cases hw
  have hacts : acts key (start wall store policies) (events ++ [e])
      = acts key (start wall store policies) events ++ [a] := by
    rw [show acts key (start wall store policies) (events ++ [e]) = _ from
      noted_snoc hu hstep, ha]
    rfl
  rw [hacts] at hnext
  rw [same, hlane, Option.some.injEq] at hlane'
  have hnext' := Lane.next_of_run hlane hnext
  rw [hlane'] at hnext'
  obtain ⟨f, v', hv', hact, hfaithful⟩ := hwatched.enabled ha hnext'
  refine ⟨f, v', h'.snoc hv' (h'.numbered.snoc fun caller hcaller => ?_)
    (h'.uncollided.snoc hact) hfaithful, hact⟩
  rw [act?_arrival hact] at hcaller
  exact fresh caller hcaller

/-- All others can be taken out of a run. -/
theorem Course.alone (distinct : store.Distinct)
    (h : Course origin key (start wall store policies) events u) :
    ∃ alone w, Course origin key (start wall store policies) alone w
      ∧ acts key (start wall store policies) alone
        = acts key (start wall store policies) events
      ∧ (acts key (start wall store policies) alone).length = alone.length
      ∧ ∀ caller ∈ alone.filterMap Event.arrival?,
        caller ∈ events.filterMap Event.arrival? := by
  induction events using List.reverseRecOn generalizing u with
  | nil => exact ⟨[], u, h, rfl, rfl, fun _ hc => hc⟩
  | append_singleton past e ih =>
      obtain ⟨v, hv, hstep⟩ := run_snoc h.run
      obtain ⟨alone, w, hw, hacts, hlength, harrived⟩ := ih (h.of_append hv)
      have hearlier : ∀ caller ∈ past.filterMap Event.arrival?,
          caller ∈ (past ++ [e]).filterMap Event.arrival? := by
        intro caller hin
        rw [List.filterMap_append]
        exact List.mem_append_left _ hin
      have hsnoc : acts key (start wall store policies) (past ++ [e])
          = acts key (start wall store policies) past
            ++ (act? key v e).toList := noted_snoc hv hstep
      cases ha : act? key v e with
      | none =>
          rw [ha, Option.toList_none, List.append_nil] at hsnoc
          exact ⟨alone, w, hw, hacts.trans hsnoc.symm, hlength,
            fun caller hin => hearlier caller (harrived caller hin)⟩
      | some a =>
          have hfresh : ∀ caller, a.arrival? = some caller →
              caller ∉ alone.filterMap Event.arrival? := by
            intro caller hcaller hin
            rw [← act?_arrival ha] at hcaller
            cases e with
            | arrive site c q =>
                cases hcaller
                exact h.numbered.not_mem (harrived _ hin)
            | _ => cases hcaller
          obtain ⟨f, x, hx, hact⟩ := h.continue distinct hw hv ha hacts hfresh
          obtain ⟨w', hw', hlast⟩ := run_snoc hx.run
          rw [hw.run] at hw'
          cases hw'
          have hnow : acts key (start wall store policies) (alone ++ [f])
              = acts key (start wall store policies) alone
                ++ (act? key w f).toList := noted_snoc hw.run hlast
          rw [ha, Option.toList_some] at hsnoc
          rw [hact, Option.toList_some] at hnow
          refine ⟨alone ++ [f], x, hx, by rw [hnow, hsnoc, hacts], ?_, ?_⟩
          · rw [hnow, List.length_append, List.length_append, hlength]
            rfl
          · intro caller hin
            rw [List.filterMap_append] at hin
            rcases List.mem_append.mp hin with hold | hnew
            · exact hearlier caller (harrived caller hold)
            · rw [List.filterMap_append]
              refine List.mem_append_right _ ?_
              have hboth := (act?_arrival ha).trans (act?_arrival hact).symm
              simpa only [List.filterMap_cons, List.filterMap_nil, hboth]
                using hnew

/-- Of two runs over one in-memory store that agree in a key's acts, and in
nothing else, the key's requests see the same: the replies to them, the calls
made for them, and what is stored under the key, but for its version. What
they do next after one of the runs they can do after the other as well, and
there is a run in which they do all this and nobody else does anything. Every
call on record is one of those made for a key, or that of a request without
key. -/
theorem key_isolated (origin : List Outbound → Outbound → Origin.Reply)
    (key : IdempotencyKey) (wall : Int) {store : MemoryStore}
    (distinct : store.Distinct) (policies : List Policy)
    {events events' : List Event} {u u' : System MemoryStore}
    (h : Course origin key (start wall store policies) events u)
    (h' : Course origin key (start wall store policies) events' u')
    (same : acts key (start wall store policies) events'
      = acts key (start wall store policies) events) :
    u'.replies.filter (fun p => decide (p.1 ∈ callers key events'))
        = u.replies.filter (fun p => decide (p.1 ∈ callers key events))
      ∧ (places key (start wall store policies) events').filterMap
          (u'.calls[·]?)
        = (places key (start wall store policies) events).filterMap
          (u.calls[·]?)
      ∧ u'.store.kept? (Fingerprint.addressOf key)
        = u.store.kept? (Fingerprint.addressOf key)
      ∧ (∀ e v a,
          Course origin key (start wall store policies) (events ++ [e]) v →
          act? key u e = some a →
          (∀ caller, a.arrival? = some caller →
            caller ∉ events'.filterMap Event.arrival?) →
          ∃ f v',
            Course origin key (start wall store policies) (events' ++ [f]) v'
            ∧ act? key u' f = some a)
      ∧ (∃ alone w, Course origin key (start wall store policies) alone w
        ∧ acts key (start wall store policies) alone
          = acts key (start wall store policies) events
        ∧ (acts key (start wall store policies) alone).length
          = alone.length)
      ∧ ∀ n < u.calls.length,
        (∃ site caller q p now, .arrive site caller q ∈ events ∧ q.key = none
          ∧ u.calls[n]? = some (q.outbound p now))
        ∨ ∃ k, n ∈ places k (start wall store policies) events := by
  obtain ⟨-, hlane⟩ := lane_run distinct h
  obtain ⟨-, hlane'⟩ := lane_run distinct h'
  rw [same, hlane, Option.some.injEq] at hlane'
  refine ⟨(congrArg Lane.replies hlane').symm,
    (congrArg Lane.calls hlane').symm, (congrArg Lane.kept hlane').symm,
    ?_, ?_, fun n hn => ?_⟩
  · intro e v a hnext ha hfresh
    exact hnext.continue distinct h' h.run ha same hfresh
  · obtain ⟨alone, w, hw, hacts, hlength, -⟩ := h.alone distinct
    exact ⟨alone, w, hw, hacts, hlength⟩
  · exact keyless_or_mem_places h.run (Nat.zero_le n) hn

end Runs

/-- A request with a key of its own, and one without any, are served around
the one that counts. -/
def busy : List Event :=
  [.arrive 0 0 { Sample.order with key := some "second-order" },
    .arrive 0 1 { Sample.order with method := ⟨"GET", by decide⟩, key := none },
    .arrive 0 2 Sample.order, .lead 0 0, .lead 0 1,
    .answer 1 (.ok Sample.created), .answer 2 (.ok Sample.created),
    .wake 0, .wake 2]

/-- It is served alone. -/
def quiet : List Event :=
  [.arrive 0 2 Sample.order, .lead 0 0, .answer 0 (.ok Sample.created),
    .wake 2]

/-- Where every answer is the same, it is the one that the origin gives. -/
theorem faithful_of_forall {key : IdempotencyKey} {mine : List CallId}
    {s : System MemoryStore} {e : Event} {r : Origin.Reply}
    (h : ∀ call answer, e = .answer call answer → answer = r) :
    Faithful (fun _ _ => r) key mine s e :=
  fun call answer _ _ hevent _ _ _ => h call answer hevent

theorem uncollided_busy : Uncollided Sample.orderKey busy := by
  have hparse : IdempotencyKey.parse "second-order"
      = .ok ⟨"second-order", by decide⟩ := by decide +kernel
  have hparse' : IdempotencyKey.parse "first-order"
      = .ok Sample.orderKey := by decide +kernel
  have hne : keccak256 (Fingerprint.addressInput
        ⟨"second-order", by decide⟩)
      ≠ keccak256 (Fingerprint.addressInput Sample.orderKey) := by
    decide +kernel
  rintro x ⟨site, caller, q, k, hin, ⟨raw, hraw, hkey⟩, rfl⟩ heq
  simp only [busy, List.mem_cons, List.not_mem_nil, or_false,
    Event.arrive.injEq, reduceCtorEq] at hin
  rcases hin with ⟨-, -, rfl⟩ | ⟨-, -, rfl⟩ | ⟨-, -, rfl⟩
  · cases hraw
    rw [hparse] at hkey
    cases hkey
    exact absurd heq hne
  · cases hraw
  · cases hraw
    rw [hparse'] at hkey
    cases hkey
    rfl

/-- With and without the others, the request that counts is answered in the
same way. -/
theorem key_isolated_busy :
    ∃ u u', (start 0 .empty [Sample.policy]).run MemoryStore.backend busy
        = some u
      ∧ (start 0 .empty [Sample.policy]).run MemoryStore.backend quiet
        = some u'
      ∧ u.replies.length = 2 ∧ u.calls.length = 3
      ∧ u'.replies.length = 1 ∧ u'.calls.length = 1
      ∧ u'.replies.filter
          (fun p => decide (p.1 ∈ callers Sample.orderKey quiet))
        = u.replies.filter
          (fun p => decide (p.1 ∈ callers Sample.orderKey busy)) := by
  have hbusy : ((start 0 .empty [Sample.policy]).run MemoryStore.backend
      busy).map (fun u => (u.replies.length, u.calls.length))
        = some (2, 3) := by decide +kernel
  have hquiet : ((start 0 .empty [Sample.policy]).run MemoryStore.backend
      quiet).map (fun u => (u.replies.length, u.calls.length))
        = some (1, 1) := by decide +kernel
  have hacts : acts Sample.orderKey (start 0 .empty [Sample.policy]) quiet
      = acts Sample.orderKey (start 0 .empty [Sample.policy]) busy := by
    decide +kernel
  obtain ⟨u, hu, hcount⟩ := Option.map_eq_some_iff.mp hbusy
  obtain ⟨u', hu', hcount'⟩ := Option.map_eq_some_iff.mp hquiet
  obtain ⟨hreplies, hcalls⟩ := Prod.mk.inj hcount
  obtain ⟨hreplies', hcalls'⟩ := Prod.mk.inj hcount'
  have hanswers : ∀ call answer, .answer call answer ∈ busy →
      answer = .ok Sample.created := by
    intro call answer hin
    simp only [busy, List.mem_cons, List.not_mem_nil, or_false,
      Event.answer.injEq, reduceCtorEq, false_or] at hin
    rcases hin with ⟨-, rfl⟩ | ⟨-, rfl⟩ <;> rfl
  have hanswers' : ∀ call answer, .answer call answer ∈ quiet →
      answer = .ok Sample.created := by
    intro call answer hin
    simp only [quiet, List.mem_cons, List.not_mem_nil, or_false,
      Event.answer.injEq, reduceCtorEq, false_or] at hin
    exact hin.2
  have hcourse : Course (fun _ _ => .ok Sample.created) Sample.orderKey
      (start 0 .empty [Sample.policy]) busy u := by
    refine ⟨hu, by decide, uncollided_busy, fun past e rest v hsplit _ => ?_⟩
    refine faithful_of_forall fun call answer hevent => hanswers call answer ?_
    rw [hsplit, ← hevent]
    exact List.mem_append_right _ (List.mem_cons_self ..)
  have hcourse' : Course (fun _ _ => .ok Sample.created) Sample.orderKey
      (start 0 .empty [Sample.policy]) quiet u' := by
    refine ⟨hu', by decide, uncollided_busy.mono fun site caller q hin => ?_,
      fun past e rest v hsplit _ => ?_⟩
    · simp only [quiet, List.mem_cons, List.not_mem_nil, or_false,
        Event.arrive.injEq, reduceCtorEq] at hin
      obtain ⟨rfl, rfl, rfl⟩ := hin
      simp [busy]
    · refine faithful_of_forall fun call answer hevent =>
        hanswers' call answer ?_
      rw [hsplit, ← hevent]
      exact List.mem_append_right _ (List.mem_cons_self ..)
  exact ⟨u, u', hu, hu', hreplies, hcalls, hreplies', hcalls',
    (key_isolated (fun _ _ => .ok Sample.created) Sample.orderKey 0
      MemoryStore.distinct_empty [Sample.policy] hcourse hcourse' hacts).1⟩

end System

end OnceProxy.Proxy
