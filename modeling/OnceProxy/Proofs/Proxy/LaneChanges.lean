/-
What the parts of a step do to the lane of a key.

Each part comes twice, once for the key's own parties and once for others: a
reply, a departure, a write to the store, the end of a flight, an attempt to
join one, a call. The key's own do to the lane what the lane's function of
the same name does, and others leave it as it is. That a foreign end leaves
the lane alone rests on the waiting callers: those with the key whose flight
is not over wait for the flight in the key's slot, and no other flight is
that one (`Watched.joined_iff`).
-/
import OnceProxy.Proofs.Proxy.Lanes

namespace OnceProxy.Proxy.System

open Origin Store

variable {key : IdempotencyKey} {past : List Event} {mine : List CallId}
  {s t : System MemoryStore} {e : Event}

-- ================================================================ changes

theorem filter_concat_pos {β : Type} {p : β → Bool} {xs : List β} {x : β}
    (hx : p x = true) : (xs ++ [x]).filter p = xs.filter p ++ [x] := by
  rw [List.filter_append, List.filter_cons_of_pos hx, List.filter_nil]

theorem filter_concat_neg {β : Type} {p : β → Bool} {xs : List β} {x : β}
    (hx : ¬p x = true) : (xs ++ [x]).filter p = xs.filter p := by
  rw [List.filter_append, List.filter_cons_of_neg hx, List.filter_nil,
    List.append_nil]

theorem lane_reply {caller : CallerId} (own : caller ∈ callers key past)
    (x : Except ProxyError Replay) :
    lane key past mine (s.reply caller x)
      = (lane key past mine s).reply caller x := by
  have hreplies : (s.replies ++ [(caller, x)]).filter
        (fun p => decide (p.1 ∈ callers key past))
      = s.replies.filter (fun p => decide (p.1 ∈ callers key past))
        ++ [(caller, x)] :=
    filter_concat_pos (decide_eq_true own)
  exact Lane.ext rfl rfl rfl rfl rfl rfl rfl hreplies

theorem lane_reply_foreign {caller : CallerId}
    (foreign : caller ∉ callers key past) (x : Except ProxyError Replay) :
    lane key past mine (s.reply caller x) = lane key past mine s := by
  have hreplies : (s.replies ++ [(caller, x)]).filter
        (fun p => decide (p.1 ∈ callers key past))
      = s.replies.filter (fun p => decide (p.1 ∈ callers key past)) :=
    filter_concat_neg (by simpa using foreign)
  exact Lane.ext rfl rfl rfl rfl rfl rfl rfl hreplies

theorem lane_dropWaiter (caller : CallerId) :
    lane key past mine (s.dropWaiter caller)
      = (lane key past mine s).dropWaiter caller := by
  have hwaiters : ((s.waiters.filter (·.caller ≠ caller)).filter
        (·.request.key = key)).map s.laneWaiter
      = ((s.waiters.filter (·.request.key = key)).map s.laneWaiter).filter
        (·.caller ≠ caller) := by
    rw [List.filter_map, List.filter_filter, List.filter_filter]
    refine congrArg (List.map s.laneWaiter) (List.filter_congr fun w _ => ?_)
    exact Bool.and_comm _ _
  exact Lane.ext rfl rfl rfl rfl rfl hwaiters rfl rfl

theorem lane_dropWaiter_foreign {caller : CallerId}
    (foreign : ∀ w ∈ s.waiters, w.caller = caller → w.request.key ≠ key) :
    lane key past mine (s.dropWaiter caller) = lane key past mine s := by
  have hwaiters : (s.waiters.filter (·.caller ≠ caller)).filter
        (·.request.key = key) = s.waiters.filter (·.request.key = key) := by
    rw [List.filter_filter]
    refine List.filter_congr fun w hw => ?_
    by_cases hcaller : w.caller = caller
    · simp [hcaller, foreign w hw hcaller]
    · simp [hcaller]
  exact Lane.ext rfl rfl rfl rfl rfl
    (congrArg (List.map s.laneWaiter) hwaiters) rfl rfl

/-- A change of the store shows in what is kept for the key, if at all. -/
theorem lane_store (st : MemoryStore) (m : Metrics) :
    lane key past mine { s with store := st, metrics := m }
      = { lane key past mine s with
          kept := st.kept? (Fingerprint.addressOf key) } := rfl

/-- One that is made under another address does not show. -/
theorem lane_store_foreign {k : EntryKey} {kept : Option Kept}
    {st : MemoryStore} (hover : s.store.Overwrites k kept st)
    (foreign : k ≠ Fingerprint.addressOf key) (m : Metrics) :
    lane key past mine { s with store := st, metrics := m }
      = lane key past mine s := by
  rw [lane_store, hover.kept, if_neg (Ne.symm foreign)]
  rfl

-- ================================================================ endings

/-- The policies do not change when flights do. -/
theorem policies_updateFlights (s : System MemoryStore) (site : Nat)
    (f : FlightTable Outcome → FlightTable Outcome) :
    (s.updateFlights site f).instances.map (·.policy)
      = s.instances.map (·.policy) := by
  refine List.ext_getElem? fun n => ?_
  rw [List.getElem?_map, List.getElem?_map]
  unfold updateFlights
  rw [List.getElem?_modify]
  cases s.instances[n]? with
  | none => rfl
  | some i => by_cases hn : site = n <;> simp [hn]

namespace Watched

variable (h : Watched key past mine s)

include h

theorem dropWaiter (caller : CallerId) :
    Watched key past mine (s.dropWaiter caller) :=
  ⟨h.staffed.dropWaiter caller, h.distinct, h.numbered, h.apart, h.sorted,
    h.placed, h.held⟩

/-- A caller with the key whose flight is not over waits for the key's
leader at its instance. -/
theorem joined_iff {w : Waiter} (hw : w ∈ s.waiters)
    (own : w.request.key = key) {l : Leader} (hl : l ∈ s.leaders)
    (hown : l.request.key = key) (hsite : w.site = l.site) :
    w.flight = l.guard.id ↔ s.outcome? w.site w.flight = none := by
  have hcoherent := h.staffed.coherent
  have hslot := h.slot_of_leader hl hown
  rw [hsite]
  constructor
  · rintro hid
    rw [hid]
    exact hcoherent.unended hslot
  · intro hopen
    have hin := h.staffed.boarded w hw (by rw [hsite]; exact hopen)
    rw [(h.waiter_iff hw).mpr own, hsite] at hin
    exact hcoherent.slot_unique hin hslot

theorem lane_finish {l : Leader} (hl : l ∈ s.leaders)
    (own : l.request.key = key) (how : FlightEnd Outcome) :
    lane key past mine (s.finishFlight l how)
      = (lane key past mine s).finish l.site how := by
  have hcoherent := h.staffed.coherent
  have hleaders : ((s.finishFlight l how).leaders.filter
        (·.request.key = key)).map (laneLeader mine)
      = ((s.leaders.filter (·.request.key = key)).map
        (laneLeader mine)).filter (·.site ≠ l.site) := by
    unfold finishFlight
    rw [List.filter_map, List.filter_filter, List.filter_filter]
    refine congrArg (List.map (laneLeader mine))
      (List.filter_congr fun m hm => ?_)
    by_cases hown : m.request.key = key
    · by_cases hsite : m.site = l.site
      · rw [h.leader_unique hm hl hown own hsite]
        simp [laneLeader]
      · simp [laneLeader, hsite]
    · simp [hown]
  have hwaiters : (s.waiters.filter (·.request.key = key)).map
        (s.finishFlight l how).laneWaiter
      = ((s.waiters.filter (·.request.key = key)).map s.laneWaiter).map
        fun w => if w.site = l.site && w.ended.isNone then
          { w with ended := some how } else w := by
    rw [List.map_map]
    refine List.map_congr_left fun w hw => ?_
    obtain ⟨hw, hown⟩ := List.mem_filter.mp hw
    have hjoined := h.joined_iff hw (of_decide_eq_true hown) hl own
    show (⟨w.caller, w.site, w.request, w.policy, w.joined,
        (s.finishFlight l how).outcome? w.site w.flight⟩ : Lane.Waiter)
      = if w.site = l.site && (s.outcome? w.site w.flight).isNone then
          ⟨w.caller, w.site, w.request, w.policy, w.joined, some how⟩
        else s.laneWaiter w
    rw [hcoherent.outcome?_finishFlight hl how]
    have hin : (w.site = l.site && (s.outcome? w.site w.flight).isNone) = true
        ↔ w.site = l.site ∧ w.flight = l.guard.id := by
      rw [Bool.and_eq_true, decide_eq_true_eq, Option.isNone_iff_eq_none]
      exact (and_congr_right hjoined).symm
    by_cases hflight : w.site = l.site ∧ w.flight = l.guard.id
    · rw [if_pos hflight, if_pos (hin.mpr hflight)]
    · rw [if_neg hflight, if_neg (mt hin.mp hflight)]
      rfl
  have hpolicies : (s.finishFlight l how).instances.map (·.policy)
      = s.instances.map (·.policy) :=
    policies_updateFlights s l.site (·.finish l.guard how)
  exact Lane.ext rfl rfl hpolicies rfl hleaders hwaiters rfl rfl

theorem lane_finish_foreign {l : Leader} (hl : l ∈ s.leaders)
    (foreign : l.request.key ≠ key) (how : FlightEnd Outcome) :
    lane key past mine (s.finishFlight l how) = lane key past mine s := by
  have hcoherent := h.staffed.coherent
  have hleaders : (s.finishFlight l how).leaders.filter
        (·.request.key = key) = s.leaders.filter (·.request.key = key) := by
    unfold finishFlight
    rw [List.filter_filter]
    refine List.filter_congr fun m hm => ?_
    by_cases hown : m.request.key = key
    · have hne : ¬(m.site = l.site ∧ m.guard = l.guard) := by
        rintro ⟨hsite, hguard⟩
        obtain rfl := hcoherent.single m hm l hl hsite
          (congrArg (·.id) hguard)
        exact foreign hown
      rcases not_and_or.mp hne with hne | hne <;> simp [hown, hne]
    · simp [hown]
  have hwaiters : (s.waiters.filter (·.request.key = key)).map
        (s.finishFlight l how).laneWaiter
      = (s.waiters.filter (·.request.key = key)).map s.laneWaiter := by
    refine List.map_congr_left fun w hw => ?_
    obtain ⟨hw, hown⟩ := List.mem_filter.mp hw
    unfold laneWaiter
    rw [hcoherent.outcome?_finishFlight hl how, if_neg ?_]
    rintro ⟨hsite, hid⟩
    -- it would wait in the key's slot for a leader of another key
    have hflying := hcoherent.flying l hl
    have hin := h.staffed.boarded w hw
      (by rw [hsite, hid]; exact hcoherent.unended hflying)
    rw [hsite, hid] at hin
    have hkey := hcoherent.slot_key_unique hin hflying
    rw [(h.waiter_iff hw).mpr (of_decide_eq_true hown)] at hkey
    exact foreign ((h.leader_iff hl).mp hkey.symm)
  have hpolicies : (s.finishFlight l how).instances.map (·.policy)
      = s.instances.map (·.policy) :=
    policies_updateFlights s l.site (·.finish l.guard how)
  exact Lane.ext rfl rfl hpolicies rfl
    (congrArg (List.map (laneLeader mine)) hleaders) hwaiters rfl rfl

-- =============================================================== attempts

omit h in
theorem any_leader_iff {site : Nat} :
    (lane key past mine s).leaders.any (·.site = site) = true
      ↔ ∃ l ∈ s.leaders, l.request.key = key ∧ l.site = site := by
  rw [List.any_eq_true]
  constructor
  · rintro ⟨v, hv, hsite⟩
    obtain ⟨l, hl, rfl⟩ := List.mem_map.mp hv
    obtain ⟨hl, own⟩ := List.mem_filter.mp hl
    exact ⟨l, hl, of_decide_eq_true own, of_decide_eq_true hsite⟩
  · rintro ⟨l, hl, own, hsite⟩
    exact ⟨_, List.mem_map.mpr
      ⟨l, List.mem_filter.mpr ⟨hl, decide_eq_true own⟩, rfl⟩,
      decide_eq_true hsite⟩

variable {caller : CallerId} {site : Nat} {r : Prepared} {policy : Policy}
  {joined : Nat}

omit h in
/-- A look-up for the key, in the lane. -/
theorem lane_lookup (address :
      r.fingerprint.entryKey = Fingerprint.addressOf key)
    {found : Option (Except ProxyError Replay)} {st : MemoryStore}
    {m : Metrics} (hlook : s.lookup MemoryStore.backend r policy
      = (found, { s with store := st, metrics := m })) :
    Lane.lookup (lane key past mine s).now (lane key past mine s).kept r
      policy = (found, st.kept? (Fingerprint.addressOf key)) := by
  obtain ⟨hfound, hover⟩ := of_lookup hlook
  rw [address] at hfound hover
  refine Prod.ext hfound ?_
  rw [hover.kept, if_pos rfl]
  rfl

omit h in
/-- One more caller in a flight that is not over. -/
theorem waiters_snoc {w : Waiter} (own : w.request.key = key)
    (hends : ∀ n id, t.outcome? n id = s.outcome? n id)
    (hopen : t.outcome? w.site w.flight = none) :
    ((s.waiters ++ [w]).filter (·.request.key = key)).map t.laneWaiter
      = (s.waiters.filter (·.request.key = key)).map s.laneWaiter
        ++ [⟨w.caller, w.site, w.request, w.policy, w.joined, none⟩] := by
  have hsame : t.laneWaiter = s.laneWaiter := by
    funext x
    unfold laneWaiter
    rw [hends]
  rw [filter_concat_pos (by simpa using own), List.map_append, ← hopen,
    hsame, hends]
  rfl

omit h in
theorem waiters_snoc_foreign {w : Waiter} (foreign : w.request.key ≠ key)
    (hends : ∀ n id, t.outcome? n id = s.outcome? n id) :
    ((s.waiters ++ [w]).filter (·.request.key = key)).map t.laneWaiter
      = (s.waiters.filter (·.request.key = key)).map s.laneWaiter := by
  have hsame : t.laneWaiter = s.laneWaiter := by
    funext x
    unfold laneWaiter
    rw [hends]
  rw [filter_concat_neg (by simpa using foreign), hsame]

theorem lane_attempt (ht : t.Coherent)
    (address : r.fingerprint.entryKey = Fingerprint.addressOf key)
    (own : r.key = key) (hcaller : caller ∈ callers key past)
    (htry : Try MemoryStore.backend s caller site r policy joined t) :
    (lane key past mine s).attempt caller site r policy joined
      = lane key past mine t := by
  have hcoherent := h.staffed.coherent
  unfold Lane.attempt
  cases htry with
  | answered x st m found =>
      rw [lane_lookup address found, lane_reply hcaller]
      rfl
  | followed id st m m' missed taken =>
      have hslot := Association.mem_of_lookup taken
      rw [address] at hslot
      obtain ⟨l, hl, hsite, -, hown⟩ := h.leader_of_slot hslot
      have hany : (lane key past mine s).leaders.any (·.site = site) = true :=
        any_leader_iff.mpr ⟨l, hl, hown, hsite⟩
      have hwaiters := waiters_snoc (s := s) (t := s)
        (w := ⟨caller, site, r, policy, id, joined + 1⟩) own
        (fun _ _ => rfl) (hcoherent.unended hslot)
      rw [lane_lookup address missed]
      simp only [if_pos hany]
      exact Lane.ext rfl rfl rfl rfl rfl hwaiters.symm rfl rfl
  | led u st m m' missed there free =>
      have htables := table?_join s there r.fingerprint.entryKey
      have hnew := ht.unended (ht.flying _ (List.mem_append_right _
        (List.mem_cons_self ..)))
      have hnone : ¬(lane key past mine s).leaders.any (·.site = site)
          = true := by
        rw [any_leader_iff]
        rintro ⟨l, hl, hown, rfl⟩
        have hslot := h.slot_of_leader hl hown
        obtain ⟨v, hv, hmem⟩ := mem_slots.mp hslot
        rw [there] at hv
        cases hv
        rw [address] at free
        exact Association.lookup_eq_none.mp free (List.mem_map_of_mem hmem)
      have hwaiters := waiters_snoc
        (w := ⟨caller, site, r, policy, u.nextId, joined + 1⟩) own
        (outcome?_launch there htables) hnew
      have hleaders : ((s.leaders ++ [(⟨site, ⟨r.fingerprint.entryKey,
            u.nextId⟩, r, policy, none⟩ : Leader)]).filter
              (·.request.key = key)).map (laneLeader mine)
          = (s.leaders.filter (·.request.key = key)).map (laneLeader mine)
            ++ [⟨site, r, policy, none⟩] := by
        rw [filter_concat_pos (by simpa using own), List.map_append]
        rfl
      have hpolicies := policies_updateFlights s site
        fun t => (t.join r.fingerprint.entryKey).2.2
      rw [lane_lookup address missed]
      simp only [if_neg hnone]
      exact Lane.ext rfl rfl hpolicies.symm rfl hleaders.symm hwaiters.symm
        rfl rfl

omit h in
theorem lane_attempt_foreign
    (address : r.fingerprint.entryKey ≠ Fingerprint.addressOf key)
    (foreign : r.key ≠ key) (hcaller : caller ∉ callers key past)
    (htry : Try MemoryStore.backend s caller site r policy joined t) :
    lane key past mine t = lane key past mine s := by
  cases htry with
  | answered x st m found =>
      rw [lane_reply_foreign hcaller,
        lane_store_foreign (of_lookup found).2 address]
  | followed id st m m' missed taken =>
      have hstore : lane key past mine { s with store := st, metrics := m }
          = lane key past mine s :=
        lane_store_foreign (of_lookup missed).2 address m
      have hwaiters := waiters_snoc_foreign (s := s) (t := s)
        (w := ⟨caller, site, r, policy, id, joined + 1⟩) foreign
        fun _ _ => rfl
      rw [← hstore]
      exact Lane.ext rfl rfl rfl rfl rfl hwaiters rfl rfl
  | led u st m m' missed there free =>
      have hstore : lane key past mine { s with store := st, metrics := m }
          = lane key past mine s :=
        lane_store_foreign (of_lookup missed).2 address m
      have hwaiters := waiters_snoc_foreign
        (w := ⟨caller, site, r, policy, u.nextId, joined + 1⟩) foreign
        (outcome?_launch there (table?_join s there r.fingerprint.entryKey))
      have hleaders : (s.leaders ++ [(⟨site, ⟨r.fingerprint.entryKey,
            u.nextId⟩, r, policy, none⟩ : Leader)]).filter
              (·.request.key = key)
          = s.leaders.filter (·.request.key = key) :=
        filter_concat_neg (by simpa using foreign)
      have hpolicies := policies_updateFlights s site
        fun t => (t.join r.fingerprint.entryKey).2.2
      rw [← hstore]
      exact Lane.ext rfl rfl hpolicies rfl
        (congrArg (List.map (laneLeader mine)) hleaders) hwaiters rfl rfl

-- ================================================================== calls

/-- A leader's second look, in the lane. -/
theorem lane_read {l : Leader} (hl : l ∈ s.leaders)
    (own : l.request.key = key) {found : Except StoreError (Option Entry)}
    {st : MemoryStore} {m : Metrics}
    (look : s.converse MemoryStore.backend (Cache.get l.guard.key)
      = (found, { s with store := st, metrics := m })) :
    Kept.read (lane key past mine s).now (lane key past mine s).kept
      = found := by
  obtain ⟨hfound, -, -⟩ := of_get look
  rw [(h.leader_iff hl).mpr own] at hfound
  exact hfound

/-- The calls for the key after one more. -/
theorem calls_snoc (sent : Outbound) :
    (mine ++ [s.calls.length]).filterMap ((s.calls ++ [sent])[·]?)
      = mine.filterMap (s.calls[·]?) ++ [sent] := by
  rw [List.filterMap_append]
  congr 1
  · refine List.filterMap_congr fun c hc => ?_
    rw [List.getElem?_append_left (h.placed c hc)]
  · rw [List.filterMap_cons_some List.getElem?_concat_length]
    rfl

omit h in
/-- A call is started by leaders as they are. -/
theorem filter_calling (l : Leader) (c : OpenCall) :
    (s.leaders.map fun o =>
        if o.site = l.site && o.guard.id = l.guard.id then
          { o with waiting := some c }
        else o).filter (·.request.key = key)
      = (s.leaders.filter (·.request.key = key)).map fun o =>
        if o.site = l.site && o.guard.id = l.guard.id then
          { o with waiting := some c }
        else o := by
  rw [List.filter_map]
  refine congrArg (List.map _) (List.filter_congr fun m _ => ?_)
  simp only [Function.comp_apply]
  split <;> rfl

theorem lane_called {l : Leader} (hl : l ∈ s.leaders)
    (own : l.request.key = key) (idle : l.waiting = none)
    {st : MemoryStore} {m : Metrics}
    (look : s.converse MemoryStore.backend (Cache.get l.guard.key)
      = (.ok none, { s with store := st, metrics := m })) :
    (lane key past mine s).lead l.site
      = some (lane key past (mine ++ [s.calls.length])
        { s with
          store := st
          metrics := m
          calls := s.calls ++ [l.request.outbound l.policy s.now]
          leaders := s.leaders.map fun o =>
            if o.site = l.site && o.guard.id = l.guard.id then
              { o with
                waiting := some
                  ⟨s.calls.length, s.elapsed + l.policy.originTimeout⟩ }
            else o }) := by
  obtain ⟨-, rfl, rfl⟩ := of_get look
  rw [Lane.lead_of_idle _ (h.leaderAt hl own) (by rw [laneLeader, idle]; rfl),
    h.lane_read hl own look]
  refine congrArg some (Lane.ext rfl rfl rfl rfl ?_ rfl
    (h.calls_snoc _).symm rfl)
  show ((s.leaders.filter (·.request.key = key)).map (laneLeader mine)).map _
    = ((s.leaders.map _).filter _).map _
  rw [filter_calling, List.map_map, List.map_map]
  refine List.map_congr_left fun m hm => ?_
  obtain ⟨hm, hown⟩ := List.mem_filter.mp hm
  simp only [Function.comp_apply]
  by_cases hsite : m.site = l.site
  · obtain rfl := h.leader_unique hm hl (of_decide_eq_true hown) own hsite
    -- all calls for the key so far are before the new one
    have hplace : (mine ++ [s.calls.length]).countP (· < s.calls.length)
        = mine.length := by
      rw [List.countP_append, List.countP_singleton,
        List.countP_eq_length.mpr (by simpa using h.placed)]
      simp
    simp only [laneLeader, decide_true, Bool.and_self, if_true,
      Option.map_some, hplace, h.length_calls]
    rfl
  · have hne : ¬(decide (m.site = l.site)
        && decide (m.guard.id = l.guard.id)) = true := by simp [hsite]
    rw [if_neg hne, h.laneLeader_snoc hm]
    exact if_neg hsite

theorem lane_called_foreign {l : Leader} (hl : l ∈ s.leaders)
    (foreign : l.request.key ≠ key) {st : MemoryStore} {m : Metrics}
    (look : s.converse MemoryStore.backend (Cache.get l.guard.key)
      = (.ok none, { s with store := st, metrics := m })) :
    lane key past mine
        { s with
          store := st
          metrics := m
          calls := s.calls ++ [l.request.outbound l.policy s.now]
          leaders := s.leaders.map fun o =>
            if o.site = l.site && o.guard.id = l.guard.id then
              { o with
                waiting := some
                  ⟨s.calls.length, s.elapsed + l.policy.originTimeout⟩ }
            else o }
      = lane key past mine s := by
  obtain ⟨-, rfl, rfl⟩ := of_get look
  have hleaders : (s.leaders.map fun o =>
        if o.site = l.site && o.guard.id = l.guard.id then
          { o with
            waiting := some
              ⟨s.calls.length, s.elapsed + l.policy.originTimeout⟩ }
        else o).filter (·.request.key = key)
      = s.leaders.filter (·.request.key = key) := by
    rw [filter_calling]
    refine (List.map_congr_left fun m hm => if_neg ?_).trans (List.map_id _)
    obtain ⟨hm, own⟩ := List.mem_filter.mp hm
    intro hboth
    rw [Bool.and_eq_true, decide_eq_true_eq, decide_eq_true_eq] at hboth
    obtain rfl := h.staffed.coherent.single m hm l hl hboth.1 hboth.2
    exact foreign (of_decide_eq_true own)
  exact Lane.ext rfl rfl rfl rfl
    (congrArg (List.map (laneLeader mine)) hleaders) rfl
    (h.calls_keep (List.prefix_append _ _)) rfl

theorem store {st : MemoryStore} (distinct : st.Distinct) (m : Metrics) :
    Watched key past mine { s with store := st, metrics := m } :=
  ⟨h.staffed.store st m, distinct, h.numbered, h.apart, h.sorted, h.placed,
    h.held⟩

end Watched

end OnceProxy.Proxy.System
