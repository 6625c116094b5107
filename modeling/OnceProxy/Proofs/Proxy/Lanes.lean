/-
The lane of a key in a system.

`lane` reads off a system what the requests with one key see of it. A step
that is an act of the key's does to the lane what the act does
(`lane_step`), and every other step leaves the lane as it is
(`lane_foreign`): the table of flights, the store, the records of calls and
replies are shared, but what others do in them does not show.

Three things keep the keys apart. Addresses do, as long as the hash has no
collision with the key's (`Apart`); with that, slots and records of others
are other slots and records. The numbers of callers do, by which replies are
told apart. And the order of calls does: calls made later take later places,
so that the place of a call among those for the key never changes.
-/
import OnceProxy.Proofs.Proxy.Lane
import OnceProxy.Proofs.Proxy.Staff

namespace OnceProxy.Proxy.System

open Store

variable {σ : Type}

-- ================================================================== acts

/-- What an event is to the requests with a key; none if it is about others
only. -/
def act? (key : IdempotencyKey) (s : System σ) : Event → Option Lane.Act
  | .arrive site caller q =>
    if q.HasKey key then some (.arrive site caller (q.prepare key)) else none
  | .lead site id =>
    (s.findLeader site id).bind fun l =>
      if l.request.key = key then some (.lead l.site) else none
  | .answer call _ =>
    (s.leaderOf call).bind fun l =>
      if l.request.key = key then some (.answer l.site) else none
  | .timeout call =>
    (s.leaderOf call).bind fun l =>
      if l.request.key = key then some (.timeout l.site) else none
  | .crash site id =>
    (s.findLeader site id).bind fun l =>
      if l.request.key = key then some (.crash l.site) else none
  | .wake caller =>
    (s.waiters.find? (·.caller = caller)).bind fun w =>
      if w.request.key = key then some (.wake caller) else none
  | .leave caller =>
    if s.waiters.any fun w => w.caller = caller && w.request.key = key then
      some (.leave caller)
    else none
  | .elapse ms => some (.elapse ms)
  | .advance ms => some (.advance ms)
  | .setPolicy site policy => some (.setPolicy site policy)
  | .sweep => some .sweep

section Acts

variable {key : IdempotencyKey} {s : System σ} {l : Leader}

theorem act?_lead (leads : s.findLeader l.site l.guard.id = some l) :
    act? key s (.lead l.site l.guard.id)
      = if l.request.key = key then some (.lead l.site) else none := by
  simp only [act?, leads, Option.bind_some]

theorem act?_crash (leads : s.findLeader l.site l.guard.id = some l) :
    act? key s (.crash l.site l.guard.id)
      = if l.request.key = key then some (.crash l.site) else none := by
  simp only [act?, leads, Option.bind_some]

theorem act?_answer {call : CallId} (leads : s.leaderOf call = some l)
    (r : Origin.Reply) :
    act? key s (.answer call r)
      = if l.request.key = key then some (.answer l.site) else none := by
  simp only [act?, leads, Option.bind_some]

theorem act?_timeout {call : CallId} (leads : s.leaderOf call = some l) :
    act? key s (.timeout call)
      = if l.request.key = key then some (.timeout l.site) else none := by
  simp only [act?, leads, Option.bind_some]

theorem act?_wake {w : Waiter}
    (waits : s.waiters.find? (·.caller = w.caller) = some w) :
    act? key s (.wake w.caller)
      = if w.request.key = key then some (.wake w.caller) else none := by
  simp only [act?, waits, Option.bind_some]

end Acts

/-- The place of the call that a step makes for a request with the key. -/
def callAt (key : IdempotencyKey) (s : System σ) (e : Event)
    (t : System σ) : List CallId :=
  match e with
  | .lead site id =>
    if (s.findLeader site id).any (·.request.key = key)
        ∧ s.calls.length < t.calls.length then
      [s.calls.length]
    else []
  | _ => []

/-- The callers whose requests have the key. -/
def callers (key : IdempotencyKey) (events : List Event) : List CallerId :=
  events.filterMap fun
    | .arrive _ caller q => if q.HasKey key then some caller else none
    | _ => none

/-- No other key has the address of this one. -/
def Apart (key : IdempotencyKey) (events : List Event) : Prop :=
  ∀ site caller q k, .arrive site caller q ∈ events → q.HasKey k →
    Fingerprint.addressOf k = Fingerprint.addressOf key → k = key

-- =============================================================== the lane

def laneLeader (mine : List CallId) (l : Leader) : Lane.Leader :=
  ⟨l.site, l.request, l.policy, l.waiting.map fun c =>
    ⟨mine.countP (· < c.call), c.deadline⟩⟩

def laneWaiter (s : System σ) (w : Waiter) : Lane.Waiter :=
  ⟨w.caller, w.site, w.request, w.policy, w.joined,
    s.outcome? w.site w.flight⟩

/-- What the requests with a key see of a system, where `past` has happened
and the calls for the key are in the places `mine`. -/
def lane (key : IdempotencyKey) (past : List Event) (mine : List CallId)
    (s : System MemoryStore) : Lane where
  wall := s.wall
  elapsed := s.elapsed
  policies := s.instances.map (·.policy)
  kept := s.store.kept? (Fingerprint.addressOf key)
  leaders := (s.leaders.filter (·.request.key = key)).map (laneLeader mine)
  waiters := (s.waiters.filter (·.request.key = key)).map s.laneWaiter
  calls := mine.filterMap (s.calls[·]?)
  replies := s.replies.filter fun p => decide (p.1 ∈ callers key past)

-- =============================================================== callers

variable {key : IdempotencyKey} {past rest : List Event} {e : Event}

theorem mem_callers {caller : CallerId} :
    caller ∈ callers key past
      ↔ ∃ site q, .arrive site caller q ∈ past ∧ q.HasKey key := by
  unfold callers
  rw [List.mem_filterMap]
  constructor
  · rintro ⟨e, he, hsome⟩
    cases e with
    | arrive site c q =>
        simp only [Option.ite_none_right_eq_some, Option.some.injEq] at hsome
        obtain ⟨hkey, rfl⟩ := hsome
        exact ⟨site, q, he, hkey⟩
    | _ => cases hsome
  · rintro ⟨site, q, he, hkey⟩
    exact ⟨_, he, if_pos hkey⟩

/-- Whose request it is tells whether it has the key. -/
theorem mem_callers_of_arrival (hn : Numbered past) {site : Nat}
    {caller : CallerId} {q : Incoming}
    (hin : .arrive site caller q ∈ past) :
    caller ∈ callers key past ↔ q.HasKey key := by
  rw [mem_callers]
  constructor
  · rintro ⟨site', q', hin', hkey⟩
    rw [hn.request_unique hin hin']
    exact hkey
  · intro hkey
    exact ⟨site, q, hin, hkey⟩

theorem Asked.mem_callers_iff {caller : CallerId} {r : Prepared}
    (h : Asked past caller r) (hn : Numbered past) :
    caller ∈ callers key past ↔ r.key = key := by
  obtain ⟨site, q, k, hin, hkey, rfl⟩ := h
  rw [mem_callers_of_arrival hn hin]
  constructor
  · intro hkey'
    exact hkey.unique hkey'
  · rintro rfl
    exact hkey

/-- The address of a request that was asked tells its key. -/
theorem Asked.address_iff {caller : CallerId} {r : Prepared}
    (h : Asked past caller r) (apart : Apart key past) :
    r.fingerprint.entryKey = Fingerprint.addressOf key ↔ r.key = key := by
  obtain ⟨site, q, k, hin, hkey, rfl⟩ := h
  refine ⟨apart site caller q k hin hkey, ?_⟩
  rintro rfl
  rfl

-- ======================================================== conversations

section Conversations

variable {s : System MemoryStore}

theorem converse_get_kept (k : EntryKey) :
    s.converse MemoryStore.backend (Cache.get k)
      = (Kept.read s.now (s.store.kept? k), s) := by
  unfold converse
  rw [Cache.run_get_kept]

theorem of_get {k : EntryKey} {found : Except StoreError (Option Entry)}
    {st : MemoryStore} {m : Metrics}
    (hlook : s.converse MemoryStore.backend (Cache.get k)
      = (found, { s with store := st, metrics := m })) :
    Kept.read s.now (s.store.kept? k) = found ∧ st = s.store
      ∧ m = s.metrics := by
  rw [converse_get_kept] at hlook
  obtain ⟨hfound, hstore⟩ := Prod.mk.inj hlook
  exact ⟨hfound, (congrArg System.store hstore).symm,
    (congrArg System.metrics hstore).symm⟩

/-- A look-up goes by what is kept for the request's key, and changes
nothing else. -/
theorem lookup_kept (r : Prepared) (policy : Policy) :
    ∃ st m, s.lookup MemoryStore.backend r policy
        = ((Lane.lookup s.now (s.store.kept? r.fingerprint.entryKey) r
            policy).1, { s with store := st, metrics := m })
      ∧ s.store.Overwrites r.fingerprint.entryKey
        (Lane.lookup s.now (s.store.kept? r.fingerprint.entryKey) r
          policy).2 st := by
  have hrefl := s.store.overwrites_refl r.fingerprint.entryKey
  unfold lookup Lane.lookup
  rw [converse_get_kept]
  cases Kept.read s.now (s.store.kept? r.fingerprint.entryKey) with
  | error fault => exact ⟨_, _, rfl, hrefl⟩
  | ok found =>
      cases found with
      | none => exact ⟨_, _, rfl, hrefl⟩
      | some entry =>
          cases hanswers : entry.answers r.fingerprint with
          | false =>
              simp only [hanswers, Bool.false_eq_true, if_false]
              exact ⟨_, _, rfl, hrefl⟩
          | true =>
              cases hrefresh : policy.refreshOnReplay with
              | false =>
                  simp only [hanswers, Bool.false_eq_true, if_true, if_false]
                  exact ⟨_, _, rfl, hrefl⟩
              | true =>
                  obtain ⟨st, hrun, hover⟩ := Cache.run_refresh_kept
                    s.store s.now r.fingerprint.entryKey
                    (s.metrics.bump (.lookups .hit)) policy.entryTtl
                  simp only [hanswers, if_true]
                  refine ⟨st, s.metrics.bump (.lookups .hit), ?_, hover⟩
                  unfold converse
                  rw [show (s.bump (.lookups .hit)).now = s.now from rfl]
                  simp only [bump, hrun]

theorem of_lookup {r : Prepared} {policy : Policy}
    {found : Option (Except ProxyError Replay)} {st : MemoryStore}
    {m : Metrics} (hlook : s.lookup MemoryStore.backend r policy
      = (found, { s with store := st, metrics := m })) :
    (Lane.lookup s.now (s.store.kept? r.fingerprint.entryKey) r policy).1
        = found
      ∧ s.store.Overwrites r.fingerprint.entryKey
        (Lane.lookup s.now (s.store.kept? r.fingerprint.entryKey) r
          policy).2 st := by
  obtain ⟨st', m', hrun, hover⟩ := lookup_kept (s := s) r policy
  rw [hrun] at hlook
  obtain ⟨hfound, hstore⟩ := Prod.mk.inj hlook
  cases congrArg System.store hstore
  exact ⟨hfound, hover⟩

/-- So does what a leader makes of a reply. -/
theorem resolve_kept (l : Leader) (v : Lane.Leader)
    (hrequest : v.request = l.request) (hpolicy : v.policy = l.policy)
    (r : Origin.Reply) :
    ∃ st m, s.resolve MemoryStore.backend l r
        = ((Lane.resolve s.now (s.store.kept? l.guard.key) v r).1,
          { s with store := st, metrics := m })
      ∧ s.store.Overwrites l.guard.key
        (Lane.resolve s.now (s.store.kept? l.guard.key) v r).2 st := by
  have hrefl := s.store.overwrites_refl l.guard.key
  unfold resolve Lane.resolve
  rw [hrequest, hpolicy]
  cases r with
  | error fault => exact ⟨_, _, rfl, hrefl⟩
  | ok response =>
      dsimp only
      cases classify response.status l.policy with
      | error fault => exact ⟨_, _, rfl, hrefl⟩
      | ok v =>
          obtain ⟨st, m, hrun, hover⟩ := Cache.run_putIfAbsent_kept s.store
            s.now l.guard.key (s.metrics.bump
              (.originCalls (.status response.status.code)))
            (l.request.entryFor l.policy response s.now)
          have hconverse : (s.bump (.originCalls
              (.status response.status.code))).converse MemoryStore.backend
                (Cache.putIfAbsent l.guard.key
                  (l.request.entryFor l.policy response s.now))
              = ((Kept.put s.now (l.request.entryFor l.policy response s.now)
                  (s.store.kept? l.guard.key)).1,
                { s with store := st, metrics := m }) := by
            unfold converse
            show (_, _) = (_, _)
            rw [show (s.bump (.originCalls
              (.status response.status.code))).now = s.now from rfl]
            simp only [bump, hrun]
          rw [show (s.bump (.originCalls
            (.status response.status.code))).now = s.now from rfl, hconverse]
          rcases hput : Kept.put s.now
            (l.request.entryFor l.policy response s.now)
            (s.store.kept? l.guard.key) with ⟨answer, k⟩
          rw [hput] at hover
          cases answer with
          | error fault => exact ⟨st, m, rfl, hover⟩
          | ok outcome => cases outcome <;> exact ⟨st, m, rfl, hover⟩

theorem of_resolve {l : Leader} {v : Lane.Leader}
    (hrequest : v.request = l.request) (hpolicy : v.policy = l.policy)
    {r : Origin.Reply} {outcome : Outcome} {st : MemoryStore} {m : Metrics}
    (hresolve : s.resolve MemoryStore.backend l r
      = (outcome, { s with store := st, metrics := m })) :
    (Lane.resolve s.now (s.store.kept? l.guard.key) v r).1 = outcome
      ∧ s.store.Overwrites l.guard.key
        (Lane.resolve s.now (s.store.kept? l.guard.key) v r).2 st := by
  obtain ⟨st', m', hrun, hover⟩ := resolve_kept (s := s) l v hrequest hpolicy r
  rw [hrun] at hresolve
  obtain ⟨houtcome, hstore⟩ := Prod.mk.inj hresolve
  cases congrArg System.store hstore
  exact ⟨houtcome, hover⟩

end Conversations

-- ============================================================== watching

/-- What a lane is read off: a system after a run, in which the keys are
apart, with the places of the calls for the key. -/
structure Watched (key : IdempotencyKey) (past : List Event)
    (mine : List CallId) (s : System MemoryStore) : Prop where
  staffed : s.Staffed past
  distinct : s.store.Distinct
  numbered : Numbered past
  apart : Apart key past
  sorted : mine.Pairwise (· < ·)
  placed : ∀ c ∈ mine, c < s.calls.length
  held : ∀ l ∈ s.leaders, l.request.key = key → ∀ c, l.waiting = some c →
    c.call ∈ mine

/-- An event that is about to happen changes nothing yet. -/
theorem Watched.before {mine : List CallId} {s : System MemoryStore}
    (h : Watched key past mine s) (hn : Numbered (past ++ [e]))
    (apart : Apart key (past ++ [e])) : Watched key (past ++ [e]) mine s :=
  ⟨h.staffed.before e, h.distinct, hn, apart, h.sorted, h.placed, h.held⟩

theorem lane_before {mine : List CallId} {s : System MemoryStore}
    (h : s.Staffed past) (hn : Numbered (past ++ [e])) :
    lane key (past ++ [e]) mine s = lane key past mine s := by
  have hreplies : s.replies.filter
        (fun p => decide (p.1 ∈ callers key (past ++ [e])))
      = s.replies.filter fun p => decide (p.1 ∈ callers key past) := by
    refine List.filter_congr fun p hp => decide_eq_decide.mpr ?_
    rw [mem_callers, mem_callers]
    constructor
    · rintro ⟨site, q, hin, hkey⟩
      rcases List.mem_append.mp hin with hold | hnew
      · exact ⟨site, q, hold, hkey⟩
      · rw [← List.mem_singleton.mp hnew] at hn
        exact absurd (h.traced.replies p hp) hn.not_mem
    · rintro ⟨site, q, hin, hkey⟩
      exact ⟨site, q, List.mem_append_left _ hin, hkey⟩
  exact congrArg (fun rs => { lane key past mine s with replies := rs })
    hreplies

namespace Watched

variable {mine : List CallId} {s t : System MemoryStore}
  (h : Watched key past mine s)

include h

theorem leader_iff {l : Leader} (hl : l ∈ s.leaders) :
    l.guard.key = Fingerprint.addressOf key ↔ l.request.key = key := by
  obtain ⟨caller, hasked⟩ := h.staffed.traced.leaders l hl
  rw [h.staffed.coherent.keyed l hl]
  exact hasked.address_iff h.apart

theorem waiter_iff {w : Waiter} (hw : w ∈ s.waiters) :
    w.request.fingerprint.entryKey = Fingerprint.addressOf key
      ↔ w.request.key = key :=
  (h.staffed.traced.waiters w hw).address_iff h.apart

theorem caller_iff {w : Waiter} (hw : w ∈ s.waiters) :
    w.caller ∈ callers key past ↔ w.request.key = key :=
  (h.staffed.traced.waiters w hw).mem_callers_iff h.numbered

theorem passer_foreign {p : Passer} (hp : p ∈ s.passers) :
    p.caller ∉ callers key past := by
  obtain ⟨site, q, hin, hnone⟩ := h.staffed.traced.passers p hp
  rw [mem_callers_of_arrival h.numbered hin]
  rintro ⟨raw, hraw, -⟩
  rw [hnone] at hraw
  cases hraw

/-- The flight in the key's slot has a leader, who leads it for the key. -/
theorem leader_of_slot {site : Nat} {id : FlightId}
    (hin : (Fingerprint.addressOf key, id) ∈ s.slots site) :
    ∃ l ∈ s.leaders, l.site = site ∧ l.guard.id = id
      ∧ l.request.key = key := by
  obtain ⟨l, hl, hsite, hguard⟩ := h.staffed.manned site _ id hin
  refine ⟨l, hl, hsite, by rw [hguard], (h.leader_iff hl).mp ?_⟩
  rw [hguard]

theorem slot_of_leader {l : Leader} (hl : l ∈ s.leaders)
    (own : l.request.key = key) :
    (Fingerprint.addressOf key, l.guard.id) ∈ s.slots l.site := by
  rw [← (h.leader_iff hl).mpr own]
  exact h.staffed.coherent.flying l hl

/-- The key has one leader at an instance. -/
theorem leader_unique {l m : Leader} (hl : l ∈ s.leaders)
    (hm : m ∈ s.leaders) (hown : l.request.key = key)
    (hown' : m.request.key = key) (hsite : l.site = m.site) : l = m :=
  h.staffed.coherent.single_key hl hm hsite
    (((h.leader_iff hl).mpr hown).trans ((h.leader_iff hm).mpr hown').symm)

theorem leaderAt {l : Leader} (hl : l ∈ s.leaders)
    (own : l.request.key = key) :
    (lane key past mine s).leaderAt l.site = some (laneLeader mine l) := by
  refine find?_unique (List.mem_map.mpr
    ⟨l, List.mem_filter.mpr ⟨hl, decide_eq_true own⟩, rfl⟩)
    (decide_eq_true rfl) ?_
  intro y hy hsite
  obtain ⟨m, hm, rfl⟩ := List.mem_map.mp hy
  obtain ⟨hm, hown⟩ := List.mem_filter.mp hm
  rw [h.leader_unique hm hl (of_decide_eq_true hown) own
    (of_decide_eq_true hsite)]

omit h in
theorem of_leaderAt {site : Nat} {v : Lane.Leader}
    (hv : (lane key past mine s).leaderAt site = some v) :
    ∃ l ∈ s.leaders, l.request.key = key ∧ l.site = site
      ∧ v = laneLeader mine l := by
  unfold Lane.leaderAt at hv
  have hsite := List.find?_some hv
  obtain ⟨l, hl, rfl⟩ := List.mem_map.mp (List.mem_of_find?_eq_some hv)
  obtain ⟨hl, hown⟩ := List.mem_filter.mp hl
  exact ⟨l, hl, of_decide_eq_true hown, of_decide_eq_true hsite, rfl⟩

theorem find?_laneWaiter {w : Waiter} (hw : w ∈ s.waiters)
    (own : w.request.key = key) :
    (lane key past mine s).waiters.find? (·.caller = w.caller)
      = some (s.laneWaiter w) := by
  refine find?_unique (List.mem_map.mpr
    ⟨w, List.mem_filter.mpr ⟨hw, decide_eq_true own⟩, rfl⟩)
    (decide_eq_true rfl) ?_
  intro y hy hcaller
  obtain ⟨x, hx, rfl⟩ := List.mem_map.mp hy
  rw [h.staffed.queue.own hw x (List.mem_of_mem_filter hx)
    (of_decide_eq_true hcaller)]

-- ----------------------------------------------------------------- calls

theorem length_calls : (lane key past mine s).calls.length = mine.length := by
  refine List.filterMap_length_eq_length.mpr fun c hc => ?_
  rw [List.getElem?_eq_getElem (h.placed c hc)]
  rfl

/-- Calls made later do not show among those that were made. -/
theorem calls_keep (hcalls : s.calls <+: t.calls) :
    mine.filterMap (t.calls[·]?) = mine.filterMap (s.calls[·]?) := by
  obtain ⟨later, hlater⟩ := hcalls
  refine List.filterMap_congr fun c hc => ?_
  rw [← hlater, List.getElem?_append_left (h.placed c hc)]

theorem laneLeader_snoc {l : Leader} (hl : l ∈ s.leaders) :
    laneLeader (mine ++ [s.calls.length]) l = laneLeader mine l := by
  unfold laneLeader
  congr 1
  refine Option.map_congr fun c hc => ?_
  have hlt := h.staffed.dialled.placed l hl c hc
  rw [List.countP_append, List.countP_singleton,
    if_neg (by simpa using Nat.le_of_lt hlt)]
  rfl

/-- The place of a call for the key, and the calls before it. -/
theorem place {c : CallId} (hc : c ∈ mine) :
    (lane key past mine s).calls[mine.countP (· < c)]? = s.calls[c]?
      ∧ (lane key past mine s).calls.take (mine.countP (· < c))
        = (mine.filter (· < c)).filterMap (s.calls[·]?) := by
  obtain ⟨front, behind, rfl⟩ := List.append_of_mem hc
  obtain ⟨-, hbehind, hfront⟩ := List.pairwise_append.mp h.sorted
  have hlt : ∀ x ∈ front, x < c :=
    fun x hx => hfront x hx c (List.mem_cons_self ..)
  have hge : ∀ x ∈ c :: behind, ¬ x < c := by
    intro x hx
    rcases List.mem_cons.mp hx with rfl | hx
    · exact Nat.lt_irrefl _
    · exact Nat.lt_asymm ((List.pairwise_cons.mp hbehind).1 x hx)
  have hfilter : (front ++ c :: behind).filter (· < c) = front := by
    rw [List.filter_append, List.filter_eq_self.mpr (by simpa using hlt),
      List.filter_eq_nil_iff.mpr (by simpa using hge), List.append_nil]
  have hlength : (front.filterMap (s.calls[·]?)).length = front.length := by
    refine List.filterMap_length_eq_length.mpr fun x hx => ?_
    rw [List.getElem?_eq_getElem
      (h.placed x (List.mem_append_left _ hx))]
    rfl
  have hplaced : c < s.calls.length := h.placed c hc
  have hcalls : (lane key past (front ++ c :: behind) s).calls
      = front.filterMap (s.calls[·]?)
        ++ s.calls[c] :: behind.filterMap (s.calls[·]?) := by
    show (front ++ c :: behind).filterMap _ = _
    rw [List.filterMap_append, List.filterMap_cons_some
      (List.getElem?_eq_getElem hplaced)]
  rw [List.countP_eq_length_filter, hfilter, hcalls, ← hlength]
  constructor
  · rw [List.getElem?_append_right (Nat.le_refl _), Nat.sub_self,
      List.getElem?_eq_getElem hplaced]
    rfl
  · exact List.take_left' rfl

end Watched

end OnceProxy.Proxy.System
