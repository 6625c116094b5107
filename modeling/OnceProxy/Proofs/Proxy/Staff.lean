/-
Who is at work, along every run and over any backend.

`Staffed` collects what holds at every instant of a run in which callers have
numbers of their own. Its first half is about flights and calls: a slot is
taken exactly as long as a leader is at it, a caller whose flight is not over
waits for the one in its key's slot, and no two leaders wait for one call. Its
second half is about where everyone comes from: every request at work, every
caller without key and every reply belongs to an arrival.

What a step does to each kind of party is known (`Proofs/Proxy/Parties`);
`Staffed.step` puts it together.
-/
import OnceProxy.Proofs.Proxy.Origins

namespace OnceProxy.Proxy.System

open Store

variable {σ : Type} {B : Backend σ} {s t u : System σ} {e : Event}

-- ================================================================= slots

/-- At every slot that is taken there is a leader. -/
def Manned (s : System σ) : Prop :=
  ∀ site key id, (key, id) ∈ s.slots site →
    ∃ l ∈ s.leaders, l.site = site ∧ l.guard = ⟨key, id⟩

theorem Manned.shift (h : s.Manned) (hs : s.Coherent)
    (hshift : Shift B s e t) : t.Manned := by
  intro site key id hin
  cases hshift with
  | calm tables leaders =>
      rw [slots_congr (tables site)] at hin
      rw [leaders]
      exact h site key id hin
  | called l event leads idle lacking tables leaders =>
      rw [slots_congr (tables site)] at hin
      obtain ⟨m, hm, hsite, hguard⟩ := h site key id hin
      rw [leaders]
      refine ⟨_, List.mem_map.mpr ⟨m, hm, rfl⟩, ?_, ?_⟩
      · split <;> exact hsite
      · split <;> exact hguard
  | launched n caller u r policy attempts lacking there free tables
      leaders =>
      rw [leaders]
      rcases (mem_slots_launch there free tables).mp hin with
        hold | ⟨rfl, hnew⟩
      · obtain ⟨m, hm, hrest⟩ := h site key id hold
        exact ⟨m, List.mem_append_left _ hm, hrest⟩
      · cases hnew
        exact ⟨_, List.mem_append_right _ (List.mem_cons_self ..), rfl, rfl⟩
  | ended l how m close tables leaders =>
      have hl := close.mem_leaders
      rw [slots_congr (tables site), hs.mem_slots_finishFlight hl how] at hin
      obtain ⟨o, ho, hsite, hguard⟩ := h site key id hin.1
      rw [leaders]
      refine ⟨o, (hs.mem_leaders_finishFlight hl how).mpr ⟨ho, ?_⟩,
        hsite, hguard⟩
      rintro rfl
      exact hin.2 ⟨hsite.symm, by rw [hguard]⟩

/-- Whose flight is not over waits for the one in its key's slot. -/
def Boarded (s : System σ) : Prop :=
  ∀ w ∈ s.waiters, s.outcome? w.site w.flight = none →
    (w.request.fingerprint.entryKey, w.flight) ∈ s.slots w.site

theorem Boarded.step (h : s.Boarded) (hs : s.Coherent)
    (hdeed : Deed B s e t) : t.Boarded := by
  intro w hw hopen
  rcases hdeed.line.mem_waiters hw with hold | ⟨-, hslot⟩
  · have hbefore : s.outcome? w.site w.flight = none := by
      cases hout : s.outcome? w.site w.flight with
      | none => rfl
      | some how =>
          rw [hs.outcome?_keep hdeed.shift hout] at hopen
          cases hopen
    rcases hs.slot_or_ended hdeed.shift (h w hold hbefore) with
      hslot | ⟨l, how, m, -, -, -, hend⟩
    · exact hslot
    · rw [hend] at hopen
      cases hopen
  · exact hslot

-- ================================================================= calls

/-- Leaders wait for calls on record, and for different ones. -/
structure Dialled (s : System σ) : Prop where
  placed : ∀ l ∈ s.leaders, ∀ c, l.waiting = some c →
    c.call < s.calls.length
  apart : ∀ l ∈ s.leaders, ∀ m ∈ s.leaders, ∀ c d, l.waiting = some c →
    m.waiting = some d → c.call = d.call → l = m

/-- A leader is found by its call. -/
theorem Dialled.leaderOf (h : s.Dialled) {l : Leader} (hl : l ∈ s.leaders)
    {c : OpenCall} (waits : l.waiting = some c) :
    s.leaderOf c.call = some l := by
  refine find?_unique hl (by simp [waits]) fun m hm hsame => ?_
  cases hwaits : m.waiting with
  | none =>
      rw [hwaits] at hsame
      cases hsame
  | some d =>
      rw [hwaits] at hsame
      exact h.apart m hm l hl d c hwaits waits (by simpa using hsame)

theorem Dialled.step (h : s.Dialled) (hs : s.Coherent)
    (hdeed : Deed B s e t) : t.Dialled := by
  -- an open call is an old leader's, or the last one made
  have hcase : ∀ l ∈ t.leaders, ∀ c, l.waiting = some c →
      (l ∈ s.leaders ∧ c.call < s.calls.length)
      ∨ ∃ m ∈ s.leaders, e = .lead m.site m.guard.id
        ∧ l = { m with
            waiting := some
              ⟨s.calls.length, s.elapsed + m.policy.originTimeout⟩ }
        ∧ c.call = s.calls.length
        ∧ t.calls.length = s.calls.length + 1 := by
    intro l hl c hc
    rcases hdeed.mem_leaders hs hl with
      hold | ⟨hidle, -⟩ | ⟨m, hm, -, hevent, rfl, hcalls⟩
    · exact .inl ⟨hold, h.placed l hold c hc⟩
    · rw [hidle] at hc
      cases hc
    · cases hc
      exact .inr ⟨m, hm, hevent, rfl, rfl, by simp [hcalls]⟩
  constructor
  · intro l hl c hc
    rcases hcase l hl c hc with ⟨-, hlt⟩ | ⟨-, -, -, -, hcall, hlen⟩
    · exact Nat.lt_of_lt_of_le hlt hdeed.calls.length_le
    · rw [hcall, hlen]
      exact Nat.lt_succ_self _
  · intro l hl m hm c d hc hd hcd
    rcases hcase l hl c hc with ⟨hl', hlt⟩ | ⟨o, ho, heo, rfl, hcall, -⟩
    · rcases hcase m hm d hd with ⟨hm', -⟩ | ⟨q, hq, -, -, hcall, -⟩
      · exact h.apart l hl' m hm' c d hc hd hcd
      · rw [hcd, hcall] at hlt
        exact absurd hlt (Nat.lt_irrefl _)
    · rcases hcase m hm d hd with ⟨-, hlt⟩ | ⟨q, hq, heq, rfl, -, -⟩
      · rw [← hcd, hcall] at hlt
        exact absurd hlt (Nat.lt_irrefl _)
      · rw [heo] at heq
        injection heq with hsite hid
        rw [hs.single o ho q hq hsite hid]

-- ============================================================== provenance

/-- The request was made out of one that arrived. -/
def Asked (past : List Event) (caller : CallerId) (r : Prepared) : Prop :=
  ∃ site q key, .arrive site caller q ∈ past ∧ q.HasKey key
    ∧ r = q.prepare key

theorem Asked.mono {past : List Event} {caller : CallerId} {r : Prepared}
    (h : Asked past caller r) (e : Event) : Asked (past ++ [e]) caller r := by
  obtain ⟨site, q, key, hin, hkey, hr⟩ := h
  exact ⟨site, q, key, List.mem_append_left _ hin, hkey, hr⟩

/-- A reply goes to someone who arrives, waits, or has a call of its own. -/
theorem Deed.replied (h : Deed B s e t)
    {p : CallerId × Except ProxyError Replay} (hp : p ∈ t.replies) :
    p ∈ s.replies ∨ e.arrival? = some p.1 ∨ (∃ w ∈ s.waiters, w.caller = p.1)
      ∨ ∃ g ∈ s.passers, g.caller = p.1 := by
  rcases h.lastReply with hsame | ⟨c, x, hlast, hto⟩
  · exact .inl (hsame ▸ hp)
  · rw [hlast] at hp
    rcases List.mem_append.mp hp with hold | hnew
    · exact .inl hold
    · rw [List.mem_singleton.mp hnew]
      exact .inr (hto.imp_right (.imp_left And.right))

/-- Everyone at work came from somewhere. -/
structure Traced (s : System σ) (past : List Event) : Prop where
  waiters : ∀ w ∈ s.waiters, Asked past w.caller w.request
  leaders : ∀ l ∈ s.leaders, ∃ caller, Asked past caller l.request
  passers : ∀ p ∈ s.passers, ∃ site q, .arrive site p.caller q ∈ past
    ∧ q.key = none
  replies : ∀ p ∈ s.replies, p.1 ∈ past.filterMap Event.arrival?

/-- So does every request that makes an attempt. -/
theorem Traced.attempt {past : List Event} (h : s.Traced past)
    {site : Nat} {caller : CallerId} {r : Prepared}
    (ha : s.attempt? e = some (site, caller, r)) :
    Asked (past ++ [e]) caller r := by
  rcases attempt?_spec ha with ⟨q, i, key, rfl, -, hkey, rfl⟩
    | ⟨w, rfl, hw, -, -, -, rfl, rfl⟩
  · exact ⟨site, q, key, List.mem_append_right _ (List.mem_cons_self ..),
      Incoming.hasKey_of_ofRequest hkey, rfl⟩
  · exact (h.waiters w (List.mem_of_find?_eq_some hw)).mono _

theorem Traced.arrived {past : List Event} (h : s.Traced past)
    {w : Waiter} (hw : w ∈ s.waiters) :
    w.caller ∈ past.filterMap Event.arrival? := by
  obtain ⟨site, q, key, hin, -⟩ := h.waiters w hw
  exact List.mem_filterMap.mpr ⟨_, hin, rfl⟩

theorem Traced.step {past : List Event} (h : s.Traced past)
    (hs : s.Coherent) (hdeed : Deed B s e t) : t.Traced (past ++ [e]) := by
  constructor
  · intro w hw
    rcases hdeed.line.mem_waiters hw with hold | ⟨hattempt, -⟩
    · exact (h.waiters w hold).mono e
    · exact h.attempt hattempt
  · intro l hl
    rcases hdeed.mem_leaders hs hl with
      hold | ⟨-, caller, hattempt⟩ | ⟨m, hm, -, -, rfl, -⟩
    · obtain ⟨caller, hasked⟩ := h.leaders l hold
      exact ⟨caller, hasked.mono e⟩
    · exact ⟨caller, h.attempt hattempt⟩
    · obtain ⟨caller, hasked⟩ := h.leaders m hm
      exact ⟨caller, hasked.mono e⟩
  · intro p hp
    rcases hdeed.mem_passers hp with
      hold | ⟨site, r, i, rfl, -, hkey, -⟩
    · obtain ⟨site, q, hin, hq⟩ := h.passers p hold
      exact ⟨site, q, List.mem_append_left _ hin, hq⟩
    · exact ⟨site, r, List.mem_append_right _ (List.mem_cons_self ..),
        Incoming.key_eq_none_of_ofRequest hkey⟩
  · intro p hp
    rw [List.filterMap_append]
    rcases hdeed.replied hp with hold | hnew | ⟨w, hw, hc⟩ | ⟨g, hg, hc⟩
    · exact List.mem_append_left _ (h.replies p hold)
    · exact List.mem_append_right _
        (List.mem_filterMap.mpr ⟨e, List.mem_cons_self .., hnew⟩)
    · rw [← hc]
      exact List.mem_append_left _ (h.arrived hw)
    · obtain ⟨site, q, hin, -⟩ := h.passers g hg
      rw [← hc]
      exact List.mem_append_left _ (List.mem_filterMap.mpr ⟨_, hin, rfl⟩)

-- ============================================================== the whole

/-- What holds at every instant of a run. -/
structure Staffed (s : System σ) (past : List Event) : Prop where
  coherent : s.Coherent
  manned : s.Manned
  boarded : s.Boarded
  dialled : s.Dialled
  queue : s.Queue past
  traced : s.Traced past

theorem staffed_start (wall : Int) (store : σ) (policies : List Policy) :
    (start wall store policies).Staffed [] := by
  refine ⟨coherent_start wall store policies, ?_,
    fun _ hw => absurd hw List.not_mem_nil,
    ⟨fun _ hl => absurd hl List.not_mem_nil,
      fun _ hl => absurd hl List.not_mem_nil⟩,
    queue_start wall store policies,
    ⟨fun _ hw => absurd hw List.not_mem_nil,
      fun _ hl => absurd hl List.not_mem_nil,
      fun _ hp => absurd hp List.not_mem_nil,
      fun _ hp => absurd hp List.not_mem_nil⟩⟩
  intro site key id hin
  obtain ⟨table, htable, hmem⟩ := mem_slots.mp hin
  rw [table?_start wall store policies htable] at hmem
  cases hmem

theorem Staffed.step {past rest : List Event} (h : s.Staffed past)
    (hn : Numbered (past ++ e :: rest)) (ht : s.step B e = some t) :
    t.Staffed (past ++ [e]) :=
  have hdeed := step_deed ht
  ⟨h.coherent.shift hdeed.shift, h.manned.shift h.coherent hdeed.shift,
    h.boarded.step h.coherent hdeed, h.dialled.step h.coherent hdeed,
    h.queue.step hn hdeed.line, h.traced.step h.coherent hdeed⟩

/-- An event that is about to happen changes nothing yet. -/
theorem Staffed.before {past : List Event} (h : s.Staffed past)
    (e : Event) : s.Staffed (past ++ [e]) := by
  have harrived : ∀ caller ∈ past.filterMap Event.arrival?,
      caller ∈ (past ++ [e]).filterMap Event.arrival? := by
    intro caller hin
    rw [List.filterMap_append]
    exact List.mem_append_left _ hin
  refine ⟨h.coherent, h.manned, h.boarded, h.dialled,
    ⟨h.queue.nodup, fun w hw => harrived _ (h.queue.arrived w hw)⟩,
    fun w hw => (h.traced.waiters w hw).mono e, fun l hl => ?_,
    fun p hp => ?_, fun p hp => harrived _ (h.traced.replies p hp)⟩
  · obtain ⟨caller, hasked⟩ := h.traced.leaders l hl
    exact ⟨caller, hasked.mono e⟩
  · obtain ⟨site, q, hin, hq⟩ := h.traced.passers p hp
    exact ⟨site, q, List.mem_append_left _ hin, hq⟩

/-- Nothing of this is about the store. -/
theorem Staffed.store {past : List Event} (h : s.Staffed past) (st : σ)
    (m : Metrics) :
    ({ s with store := st, metrics := m } : System σ).Staffed past :=
  ⟨h.coherent.congr (fun _ => rfl) rfl, h.manned, h.boarded,
    ⟨h.dialled.placed, h.dialled.apart⟩,
    ⟨h.queue.nodup, h.queue.arrived⟩,
    ⟨h.traced.waiters, h.traced.leaders, h.traced.passers,
      h.traced.replies⟩⟩

/-- A caller can be taken off those that wait. -/
theorem Staffed.dropWaiter {past : List Event} (h : s.Staffed past)
    (caller : CallerId) : (s.dropWaiter caller).Staffed past :=
  ⟨h.coherent.congr (fun _ => rfl) rfl, h.manned,
    fun w hw => h.boarded w (List.mem_of_mem_filter hw),
    ⟨h.dialled.placed, h.dialled.apart⟩,
    ⟨h.queue.nodup.sublist (List.filter_sublist.map _),
      fun w hw => h.queue.arrived w (List.mem_of_mem_filter hw)⟩,
    fun w hw => h.traced.waiters w (List.mem_of_mem_filter hw),
    h.traced.leaders, h.traced.passers, h.traced.replies⟩

theorem staffed_run {wall : Int} {store : σ} {policies : List Policy}
    {events : List Event} (hn : Numbered events)
    (hr : (start wall store policies).run B events = some u) :
    u.Staffed events := by
  refine run_induction (P := fun past u => u.Staffed past) hr
    (staffed_start wall store policies) ?_
  intro past e rest v w hevents _ hv hstep
  rw [hevents] at hn
  exact hv.step hn hstep

end OnceProxy.Proxy.System
