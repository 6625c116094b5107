/-
What a step does to the lane of a key.

A step that is an act of the key's does to the lane what the act does, and
any other step leaves it as it is (`Watched.lane_step`), a case for each kind
of step from the parts that it is made of. Afterwards the lane can be read
off as it could before (`Watched.step`).
-/
import OnceProxy.Proofs.Proxy.LaneChanges

namespace OnceProxy.Proxy.System

open Origin Store

variable {key : IdempotencyKey} {past : List Event} {mine : List CallId}
  {s t : System MemoryStore} {e : Event}

-- ================================================================== steps

/-- The origin's answer to a call for the key is the one that it gives to
this call after the earlier calls for the key. -/
def Faithful (origin : List Outbound → Outbound → Origin.Reply)
    (key : IdempotencyKey) (mine : List CallId) (s : System MemoryStore)
    (e : Event) : Prop :=
  ∀ call r l sent, e = .answer call r → s.leaderOf call = some l →
    l.request.key = key → s.calls[call]? = some sent →
    r = origin ((mine.filter (· < call)).filterMap (s.calls[·]?)) sent

theorem callAt_eq_nil (hcalls : t.calls = s.calls) :
    callAt key s e t = [] := by
  unfold callAt
  rw [hcalls]
  cases e with
  | lead site id => exact if_neg fun h => Nat.lt_irrefl _ h.2
  | _ => rfl

theorem callAt_lead {l : Leader}
    (leads : s.findLeader l.site l.guard.id = some l)
    (own : l.request.key = key) (hmore : s.calls.length < t.calls.length) :
    callAt key s (.lead l.site l.guard.id) t = [s.calls.length] :=
  if_pos ⟨by simpa [leads] using own, hmore⟩

theorem callAt_lead_foreign {l : Leader}
    (leads : s.findLeader l.site l.guard.id = some l)
    (foreign : l.request.key ≠ key) :
    callAt key s (.lead l.site l.guard.id) t = [] := by
  refine if_neg fun hboth => foreign ?_
  simpa [leads] using hboth.1

/-- The end of a flight changes nothing under other addresses. -/
theorem Close.overwrites {l : Leader} {how : FlightEnd Outcome}
    {st : MemoryStore} {m : Metrics}
    (h : Close MemoryStore.backend s e l how st m) :
    ∃ kept, s.store.Overwrites l.guard.key kept st := by
  cases h with
  | failed _ _ _ _ leads idle look | found _ _ _ _ leads idle look =>
      obtain ⟨-, rfl, -⟩ := of_get look
      exact ⟨_, s.store.overwrites_refl _⟩
  | answered _ c r outcome _ _ leads waits inTime result =>
      exact ⟨_, (of_resolve (v := laneLeader [] l) rfl rfl result).2⟩
  | late | died => exact ⟨_, s.store.overwrites_refl _⟩

namespace Watched

variable (h : Watched key past mine s)
  {origin : List Outbound → Outbound → Origin.Reply}

include h

theorem lane_close {l : Leader} {how : FlightEnd Outcome}
    {st : MemoryStore} {m : Metrics}
    (hclose : Close MemoryStore.backend s e l how st m)
    (own : l.request.key = key) (faithful : Faithful origin key mine s e) :
    (lane key past mine s).follow origin (act? key s e)
      = some (lane key past mine
        ({ s with store := st, metrics := m }.finishFlight l how)) := by
  have hl := hclose.mem_leaders
  have hleader := h.leaderAt hl own
  obtain ⟨kept, hover⟩ := hclose.overwrites
  rw [(h.store (hover.distinct h.distinct) m).lane_finish hl own,
    lane_store st m]
  cases hclose with
  | failed _ _ _ _ leads idle look | found _ _ _ _ leads idle look =>
      have hread := h.lane_read hl own look
      obtain ⟨-, rfl, rfl⟩ := of_get look
      rw [act?_lead leads, if_pos own]
      show (lane key past mine s).lead l.site = _
      rw [Lane.lead_of_idle _ hleader (by rw [laneLeader, idle]; rfl), hread]
      rfl
  | answered _ c r outcome _ _ leads waits inTime result =>
      have hmine := h.held l hl own c waits
      obtain ⟨hplace, hbefore⟩ := h.place hmine
      have hsent := List.getElem?_eq_getElem (h.placed c.call hmine)
      have hreply : Lane.answerTo origin (lane key past mine s).calls
          (mine.countP (· < c.call)) = some r := by
        unfold Lane.answerTo
        rw [hplace, hbefore, hsent, Option.map_some,
          ← faithful _ _ _ _ rfl leads own hsent]
      obtain ⟨houtcome, hstore⟩ :=
        of_resolve (v := laneLeader mine l) rfl rfl result
      rw [(h.leader_iff hl).mpr own] at houtcome hstore
      have hkept := hstore.kept (Fingerprint.addressOf key)
      rw [if_pos rfl] at hkept
      rw [act?_answer leads, if_pos own, hkept, ← houtcome]
      show (lane key past mine s).answer origin l.site = _
      unfold Lane.answer
      rw [hleader]
      simp only [Option.bind_eq_bind, Option.bind_some, laneLeader, waits,
        Option.map_some]
      rw [if_pos (show (lane key past mine s).elapsed ≤ c.deadline from
        inTime), hreply]
      rfl
  | late _ c leads waits overdue =>
      rw [act?_timeout leads, if_pos own]
      show (lane key past mine s).timeout l.site = _
      unfold Lane.timeout
      rw [hleader]
      simp only [Option.bind_eq_bind, Option.bind_some, laneLeader, waits,
        Option.map_some]
      rw [if_pos (show c.deadline ≤ (lane key past mine s).elapsed from
        overdue)]
      rfl
  | died _ leads =>
      rw [act?_crash leads, if_pos own]
      show (lane key past mine s).crash l.site = _
      unfold Lane.crash
      rw [hleader]
      rfl

theorem lane_close_foreign {l : Leader} {how : FlightEnd Outcome}
    {st : MemoryStore} {m : Metrics}
    (hclose : Close MemoryStore.backend s e l how st m)
    (foreign : l.request.key ≠ key) :
    (lane key past mine s).follow origin (act? key s e)
      = some (lane key past mine
        ({ s with store := st, metrics := m }.finishFlight l how)) := by
  have hl := hclose.mem_leaders
  have hact : act? key s e = none := by
    cases hclose with
    | failed _ _ _ _ leads | found _ _ _ _ leads =>
        rw [act?_lead leads, if_neg foreign]
    | answered _ _ _ _ _ _ leads => rw [act?_answer leads, if_neg foreign]
    | late _ _ leads => rw [act?_timeout leads, if_neg foreign]
    | died _ leads => rw [act?_crash leads, if_neg foreign]
  obtain ⟨kept, hover⟩ := hclose.overwrites
  rw [hact, (h.store (hover.distinct h.distinct) m).lane_finish_foreign hl
    foreign, lane_store_foreign hover (mt (h.leader_iff hl).mp foreign)]
  rfl

/-- A caller's request looks for its key's entry, and for no other. -/
theorem lane_arrive {site : Nat} {caller : CallerId} {r : Incoming}
    {i : Instance} {k : IdempotencyKey}
    (hin : .arrive site caller r ∈ past)
    (there : s.instances[site]? = some i) (hkey : r.HasKey k)
    (attempt : Try MemoryStore.backend s caller site (r.prepare k) i.policy
      0 t) (ht : t.Coherent) :
    (lane key past mine s).follow origin
        (act? key s (.arrive site caller r))
      = some (lane key past mine t) := by
  have hcaller : caller ∈ callers key past ↔ r.HasKey key :=
    mem_callers_of_arrival h.numbered hin
  by_cases hsame : r.HasKey key
  · obtain rfl := hkey.unique hsame
    have hpolicy : (lane k past mine s).policies[site]?
        = some i.policy := by
      show (s.instances.map (·.policy))[site]? = _
      rw [List.getElem?_map, there]
      rfl
    rw [← h.lane_attempt ht rfl rfl (hcaller.mpr hsame) attempt]
    simp only [act?, if_pos hsame]
    show (lane k past mine s).arrive site caller (r.prepare k) = _
    unfold Lane.arrive
    rw [hpolicy]
    rfl
  · have hne : k ≠ key := by
      rintro rfl
      exact hsame hkey
    have haddress : (r.prepare k).fingerprint.entryKey
        ≠ Fingerprint.addressOf key :=
      fun heq => hne (h.apart site caller r k hin hkey heq)
    rw [lane_attempt_foreign haddress hne (mt hcaller.mp hsame) attempt]
    simp only [act?, if_neg hsame]
    rfl

/-- A caller that is woken is replied to or looks again, as its flight
ended. -/
theorem lane_woken {w : Waiter} {x : Except ProxyError Replay}
    (waits : s.waiters.find? (·.caller = w.caller) = some w)
    (reply : (lane key past mine s).waiters.find? (·.caller = w.caller)
        = some (s.laneWaiter w) →
      (lane key past mine s).wake w.caller
        = some (((lane key past mine s).dropWaiter w.caller).reply w.caller
          x)) :
    (lane key past mine s).follow origin (act? key s (.wake w.caller))
      = some (lane key past mine
        ((s.dropWaiter w.caller).reply w.caller x)) := by
  have hw := List.mem_of_find?_eq_some waits
  have hcaller := h.caller_iff hw
  by_cases own : w.request.key = key
  · rw [lane_reply (hcaller.mpr own), lane_dropWaiter, act?_wake waits,
      if_pos own]
    exact reply (h.find?_laneWaiter hw own)
  · rw [lane_reply_foreign (mt hcaller.mp own), lane_dropWaiter_foreign]
    · rw [act?_wake waits, if_neg own]
      rfl
    · intro o ho hsame
      rw [h.staffed.queue.own hw o ho hsame]
      exact own

theorem lane_retried {w : Waiter}
    (waits : s.waiters.find? (·.caller = w.caller) = some w)
    (isOver : s.outcome? w.site w.flight = some .aborted)
    (more : w.joined < maxLeadershipAttempts)
    (attempt : Try MemoryStore.backend (s.dropWaiter w.caller) w.caller
      w.site w.request w.policy w.joined t) (ht : t.Coherent) :
    (lane key past mine s).follow origin (act? key s (.wake w.caller))
      = some (lane key past mine t) := by
  have hw := List.mem_of_find?_eq_some waits
  have hcaller := h.caller_iff hw
  have haddress := h.waiter_iff hw
  by_cases own : w.request.key = key
  · rw [← (h.dropWaiter w.caller).lane_attempt ht (haddress.mpr own) own
      (hcaller.mpr own) attempt, lane_dropWaiter, act?_wake waits, if_pos own]
    show (lane key past mine s).wake w.caller = _
    unfold Lane.wake
    rw [h.find?_laneWaiter hw own]
    simp only [Option.bind_eq_bind, Option.bind_some, laneWaiter, isOver,
      if_pos more]
    rfl
  · rw [lane_attempt_foreign (mt haddress.mp own) own (mt hcaller.mp own)
      attempt, lane_dropWaiter_foreign]
    · rw [act?_wake waits, if_neg own]
      rfl
    · intro o ho hsame
      rw [h.staffed.queue.own hw o ho hsame]
      exact own

omit h in
theorem any_waiter_iff {caller : CallerId} :
    (lane key past mine s).waiters.any (·.caller = caller) = true
      ↔ ∃ w ∈ s.waiters, w.request.key = key ∧ w.caller = caller := by
  rw [List.any_eq_true]
  constructor
  · rintro ⟨v, hv, hcaller⟩
    obtain ⟨w, hw, rfl⟩ := List.mem_map.mp hv
    obtain ⟨hw, own⟩ := List.mem_filter.mp hw
    exact ⟨w, hw, of_decide_eq_true own, of_decide_eq_true hcaller⟩
  · rintro ⟨w, hw, own, hcaller⟩
    exact ⟨_, List.mem_map.mpr
      ⟨w, List.mem_filter.mpr ⟨hw, decide_eq_true own⟩, rfl⟩,
      decide_eq_true hcaller⟩

omit h in
theorem lane_left (caller : CallerId) :
    (lane key past mine s).follow origin (act? key s (.leave caller))
      = some (lane key past mine (s.leave caller)) := by
  have hlane : lane key past mine (s.leave caller)
      = lane key past mine (s.dropWaiter caller) := rfl
  rw [hlane]
  by_cases own : ∃ w ∈ s.waiters, w.request.key = key ∧ w.caller = caller
  · have hany : (s.waiters.any fun w =>
        w.caller = caller && w.request.key = key) = true := by
      obtain ⟨w, hw, hkey, hcaller⟩ := own
      exact List.any_eq_true.mpr ⟨w, hw, by simp [hkey, hcaller]⟩
    simp only [act?, if_pos hany]
    show (if _ then some _ else none) = _
    rw [if_pos (any_waiter_iff.mpr own), lane_dropWaiter]
  · have hnone : ¬(s.waiters.any fun w =>
        w.caller = caller && w.request.key = key) = true := by
      intro hany
      obtain ⟨w, hw, hboth⟩ := List.any_eq_true.mp hany
      rw [Bool.and_eq_true, decide_eq_true_eq, decide_eq_true_eq] at hboth
      exact own ⟨w, hw, hboth.2, hboth.1⟩
    rw [lane_dropWaiter_foreign]
    · simp only [act?, if_neg hnone]
      rfl
    · exact fun w hw hcaller hkey => own ⟨w, hw, hkey, hcaller⟩

omit h in
theorem lane_setPolicy (site : Nat) (policy : Policy) :
    lane key past mine
        { s with
          instances := s.instances.modify site fun i =>
            { i with policy := policy } }
      = { lane key past mine s with
          policies := (lane key past mine s).policies.modify site
            fun _ => policy } := by
  have hpolicies : (s.instances.modify site fun i =>
        { i with policy := policy }).map (·.policy)
      = (s.instances.map (·.policy)).modify site fun _ => policy := by
    refine List.ext_getElem? fun n => ?_
    rw [List.getElem?_map, List.getElem?_modify, List.getElem?_modify,
      List.getElem?_map]
    cases s.instances[n]? with
    | none => rfl
    | some i => by_cases hn : site = n <;> simp [hn]
  have hwaiters : (s.waiters.filter (·.request.key = key)).map
        ({ s with
          instances := s.instances.modify site fun i =>
            { i with policy := policy } } : System MemoryStore).laneWaiter
      = (s.waiters.filter (·.request.key = key)).map s.laneWaiter := by
    refine List.map_congr_left fun w _ => ?_
    unfold laneWaiter
    rw [outcome?_congr (table?_setPolicy s site policy w.site)]
  exact Lane.ext rfl rfl hpolicies rfl rfl hwaiters rfl rfl

/-- A step does to the lane what its act does, and nothing if it is no act
of the key's. -/
theorem lane_step (hin : e ∈ past) (hdeed : Deed MemoryStore.backend s e t)
    (faithful : Faithful origin key mine s e) :
    (lane key past mine s).follow origin (act? key s e)
      = some (lane key past (mine ++ callAt key s e t) t) := by
  have ht := h.staffed.coherent.shift hdeed.shift
  cases hdeed with
  | refused site caller r i fault there bad =>
      have hnone : ¬r.HasKey key := by
        intro hkey
        rw [hkey.ofRequest] at bad
        cases bad
      rw [lane_reply_foreign
        (mt (mem_callers_of_arrival h.numbered hin).mp hnone)]
      simp only [act?, if_neg hnone, callAt, List.append_nil]
      rfl
  | passed site caller r i there keyless =>
      have hnone : ¬r.HasKey key := by
        intro hkey
        rw [hkey.ofRequest] at keyless
        cases keyless
      simp only [act?, if_neg hnone, callAt, List.append_nil]
      exact congrArg some (Lane.ext rfl rfl rfl rfl rfl rfl
        (h.calls_keep (List.prefix_append _ _)).symm rfl)
  | attempted site caller r i k t there keyed attempt =>
      rw [show callAt key s (.arrive site caller r) t = [] from rfl,
        List.append_nil]
      exact h.lane_arrive hin there (Incoming.hasKey_of_ofRequest keyed)
        attempt ht
  | called l st m leads idle look =>
      have hl := List.mem_of_find?_eq_some leads
      by_cases own : l.request.key = key
      · rw [callAt_lead leads own (by simp)]
        rw [act?_lead leads, if_pos own]
        exact h.lane_called hl own idle look
      · rw [callAt_lead_foreign leads own, List.append_nil,
          h.lane_called_foreign hl own look, act?_lead leads, if_neg own]
        rfl
  | ended e l how st m close =>
      have hcall : callAt key s e
          ({ s with store := st, metrics := m }.finishFlight l how) = [] :=
        callAt_eq_nil rfl
      rw [hcall, List.append_nil]
      by_cases own : l.request.key = key
      · exact h.lane_close close own faithful
      · exact h.lane_close_foreign close own
  | passerAnswered m p answer waits keyless inTime =>
      have hp := h.passer_foreign (List.mem_of_find?_eq_some waits)
      rw [lane_reply_foreign hp]
      simp only [act?, keyless, Option.bind_none, callAt, List.append_nil]
      rfl
  | passerLate m p waits keyless overdue =>
      have hp := h.passer_foreign (List.mem_of_find?_eq_some waits)
      rw [lane_reply_foreign hp]
      simp only [act?, keyless, Option.bind_none, callAt, List.append_nil]
      rfl
  | settled w outcome waits isOver =>
      rw [show callAt key s (.wake w.caller) _ = [] from rfl,
        List.append_nil]
      refine h.lane_woken waits fun hfind => ?_
      unfold Lane.wake
      rw [hfind]
      simp only [Option.bind_eq_bind, Option.bind_some, laneWaiter, isOver]
      rfl
  | retried w t waits isOver more attempt =>
      rw [show callAt key s (.wake w.caller) _ = [] from rfl,
        List.append_nil]
      exact h.lane_retried waits isOver more attempt ht
  | exhausted w waits isOver noMore =>
      rw [show callAt key s (.wake w.caller) _ = [] from rfl,
        List.append_nil]
      refine h.lane_woken waits fun hfind => ?_
      unfold Lane.wake
      rw [hfind]
      simp only [Option.bind_eq_bind, Option.bind_some, laneWaiter, isOver,
        if_neg (Nat.not_lt_of_le noMore)]
      rfl
  | left caller =>
      rw [show callAt key s (.leave caller) _ = [] from rfl,
        List.append_nil]
      exact lane_left caller
  | elapsed ms | advanced ms =>
      simp only [act?, callAt, List.append_nil]
      rfl
  | policySet site policy =>
      simp only [act?, callAt, List.append_nil, lane_setPolicy]
      rfl
  | swept m =>
      have hkept := MemoryStore.kept?_purge h.distinct s.now
        (Fingerprint.addressOf key)
      simp only [act?, callAt, List.append_nil]
      exact congrArg some (Lane.ext rfl rfl rfl hkept.symm rfl rfl rfl rfl)

end Watched

-- ================================================================ keeping

theorem Try.overwrites {caller : CallerId} {site : Nat} {r : Prepared}
    {policy : Policy} {joined : Nat}
    (h : Try MemoryStore.backend s caller site r policy joined t) :
    ∃ kept, s.store.Overwrites r.fingerprint.entryKey kept t.store := by
  cases h with
  | answered x st m found => exact ⟨_, (of_lookup found).2⟩
  | followed id st m m' missed taken => exact ⟨_, (of_lookup missed).2⟩
  | led u st m m' missed there free => exact ⟨_, (of_lookup missed).2⟩

theorem Deed.distinct (h : Deed MemoryStore.backend s e t)
    (distinct : s.store.Distinct) : t.store.Distinct := by
  cases h with
  | attempted site caller r i k t there keyed attempt =>
      obtain ⟨kept, hover⟩ := attempt.overwrites
      exact hover.distinct distinct
  | retried w t waits isOver more attempt =>
      obtain ⟨kept, hover⟩ := attempt.overwrites
      exact hover.distinct distinct
  | called l st m leads idle look =>
      obtain ⟨-, rfl, -⟩ := of_get look
      exact distinct
  | ended e l how st m close =>
      obtain ⟨kept, hover⟩ := close.overwrites
      exact hover.distinct distinct
  | swept m => exact MemoryStore.distinct_purge distinct s.now
  | refused | passed | passerAnswered | passerLate | settled | exhausted
  | left | elapsed | advanced | policySet => exact distinct

/-- A call for the key is the last one made. -/
theorem callAt_cases (key : IdempotencyKey) (s : System MemoryStore)
    (e : Event) (t : System MemoryStore) :
    callAt key s e t = []
      ∨ callAt key s e t = [s.calls.length]
        ∧ s.calls.length < t.calls.length := by
  unfold callAt
  cases e with
  | lead site id =>
      dsimp only
      split
      · next hboth => exact .inr ⟨rfl, hboth.2⟩
      · exact .inl rfl
  | _ => exact .inl rfl

/-- A lane can be read off after a step as it could before. -/
theorem Watched.step (h : Watched key past mine s)
    (hn : Numbered (past ++ [e])) (apart : Apart key (past ++ [e]))
    (ht : s.step MemoryStore.backend e = some t) :
    Watched key (past ++ [e]) (mine ++ callAt key s e t) t := by
  have hdeed := step_deed ht
  have hlater := hdeed.calls.length_le
  refine ⟨h.staffed.step hn ht, hdeed.distinct h.distinct, hn, apart,
    ?_, ?_, ?_⟩
  · rcases callAt_cases key s e t with hnil | ⟨hone, -⟩
    · rw [hnil, List.append_nil]
      exact h.sorted
    · rw [hone, List.pairwise_append]
      refine ⟨h.sorted, List.pairwise_singleton .., fun c hc d hd => ?_⟩
      rw [List.mem_singleton.mp hd]
      exact h.placed c hc
  · intro c hc
    rcases List.mem_append.mp hc with hold | hnew
    · exact Nat.lt_of_lt_of_le (h.placed c hold) hlater
    · rcases callAt_cases key s e t with hnil | ⟨hone, hmore⟩
      · rw [hnil] at hnew
        cases hnew
      · rw [hone] at hnew
        rw [List.mem_singleton.mp hnew]
        exact hmore
  · intro l hl own c hc
    rcases hdeed.mem_leaders h.staffed.coherent hl with
      hold | ⟨hidle, -⟩ | ⟨m, hm, -, rfl, rfl, hcalls⟩
    · exact List.mem_append_left _ (h.held l hold own c hc)
    · rw [hidle] at hc
      cases hc
    · cases hc
      have hfind := h.staffed.coherent.findLeader hm
      rw [callAt_lead hfind own (by simp [hcalls])]
      exact List.mem_append_right _ (List.mem_cons_self ..)

end OnceProxy.Proxy.System
