/-
Fidelity: what the origin has answered is what callers are given.

A final response is written into an entry, the entry into octets, and the
octets are read again for every repetition, possibly after the expiry was
moved or the store was saved and loaded. Those who wait for the flight are
told from the entry in hand, everyone later from the octets. Either way a
reply has the response's status and body, and of every name that is kept the
same values in the same order (`Mirrors`).

Two facts carry this. The entry gives the response back (`gives_entryFor`),
and as long as its key stays live all that is read under the key is of the
same result (`Descends.sameResult`), whoever refreshes, saves or loads it.
-/
import Mathlib.Data.List.Infix
import OnceProxy.Proofs.Proxy.FanOut
import OnceProxy.Proofs.Proxy.LiveKeys
import OnceProxy.Proofs.Proxy.Mandates

namespace OnceProxy.Proxy

open Http Store MemoryStore

-- ================================================================ mirrors

/-- The reply is the origin's response without the fields that belong to the
connection and the length. -/
structure Replay.Mirrors (x : Replay) (response : Response) : Prop where
  status : x.status = response.status
  body : x.body = response.body
  fields : ∀ name,
    x.headers.values name = response.headers.cacheable.values name

/-- The entry is the result of the operation and gives this response. -/
structure Gives (e : Entry) (fp : Fingerprint) (response : Response) :
    Prop where
  own : e.fingerprint = fp.id
  mirrors : ∀ replayed, (Replay.ofEntry e replayed).Mirrors response

namespace Gives

variable {e f : Entry} {fp : Fingerprint} {response : Response}

/-- An entry gives the response that it was made of. -/
theorem ofResponse (r : Prepared) (policy : Policy) (response : Response)
    (now : UInt64) :
    Gives (r.entryFor policy response now) r.fingerprint response := by
  refine ⟨rfl, fun replayed => ⟨?_, rfl, fun name => ?_⟩⟩
  · exact Entry.statusCode_ofResponse ..
  · show (Entry.headerMap (.ofResponse ..)).values name = _
    rw [Entry.headerMap_ofResponse]
    exact response.headers.cacheable.values_grouped name

/-- So does every entry of its result. -/
theorem sameResult (h : Gives e fp response) (hsame : e.sameResult f = true) :
    Gives f fp response := by
  rw [Entry.sameResult_iff.mp hsame]
  exact ⟨h.own, fun replayed => h.mirrors replayed⟩

/-- What a look-up replies with it. -/
theorem recalled (h : Gives e fp response) {own : Fingerprint}
    (hown : own.id = fp.id) :
    System.recalled e own = .ok (.ofEntry e true) :=
  System.recalled_of_own (h.own.trans hown.symm)

/-- What a flight that comes to it tells. -/
theorem shared (h : Gives e fp response) {own : Fingerprint}
    (hown : own.id = fp.id) (fresh : Bool) :
    Proxy.shared (.ok ⟨e, fresh⟩) own = .ok (.ofEntry e (!fresh)) := by
  show (if e.fingerprint = own.id then _ else _) = _
  rw [if_pos (h.own.trans hown.symm)]
  rfl

end Gives

namespace System

variable {s t u v : System MemoryStore} {l : Leader} {c : OpenCall}
  {response : Response} {fp : Fingerprint}

-- ============================================================= the flight

/-- Everyone of this operation who waits for the flight is told the response
when it is woken, whatever happens until then. -/
def Told (t : System MemoryStore) (l : Leader) (fp : Fingerprint)
    (response : Response) (replayed : Bool) : Prop :=
  ∀ events u, t.run MemoryStore.backend events = some u → ∀ w,
    u.waiters.find? (·.caller = w.caller) = some w → w.Joined l →
    w.request.fingerprint.id = fp.id →
    ∃ v x, u.step MemoryStore.backend (.wake w.caller) = some v
      ∧ v.replies = u.replies ++ [(w.caller, .ok x)]
      ∧ x.Mirrors response ∧ x.replayed = replayed

theorem told_of_outcome (ht : t.Coherent) {e : Entry}
    (h : Gives e fp response) {fresh : Bool}
    (hover : t.outcome? l.site l.guard.id
      = some (.completed (.ok ⟨e, fresh⟩))) : Told t l fp response !fresh := by
  intro events u hu w waits hjoined hown
  have hdone := ht.outcome?_run hu hover
  rw [← hjoined.1, ← hjoined.2] at hdone
  refine ⟨_, .ofEntry e !fresh, wake_completed waits hdone, ?_,
    h.mirrors _, rfl⟩
  rw [h.shared hown]
  rfl

/-- What a final response comes to. -/
theorem resolve_final (h : s.store.WellStored)
    (final : l.policy.isDefinitive response.status = true) :
    ∃ m, s.resolve MemoryStore.backend l (.ok response)
      = (.ok (match s.live? l.guard.key with
          | none => ⟨l.request.entryFor l.policy response s.now, true⟩
          | some e => ⟨e, false⟩),
        { s with
          store := s.store.insert s.now l.guard.key
            (l.request.entryFor l.policy response s.now)
          metrics := m }) := by
  have hb : (s.bump (.originCalls
    (.status response.status.code))).store.WellStored := h
  have hlive : (s.bump (.originCalls (.status response.status.code))).live?
    l.guard.key = s.live? l.guard.key := rfl
  unfold resolve classify
  simp only [final, if_true, converse_put hb, hlive]
  cases s.live? l.guard.key <;> exact ⟨_, rfl⟩

/-- The event of a final response that comes in time. -/
theorem answer_final (h : s.store.WellStored) (hs : s.Coherent)
    (leads : s.leaderOf c.call = some l) (waits : l.waiting = some c)
    (inTime : s.elapsed ≤ c.deadline)
    (final : l.policy.isDefinitive response.status = true) :
    ∃ t, s.step MemoryStore.backend (.answer c.call (.ok response)) = some t
      ∧ t.store = s.store.insert s.now l.guard.key
        (l.request.entryFor l.policy response s.now)
      ∧ t.outcome? l.site l.guard.id = some (.completed (.ok
          (match s.live? l.guard.key with
            | none => ⟨l.request.entryFor l.policy response s.now, true⟩
            | some e => ⟨e, false⟩))) := by
  obtain ⟨m, hresolve⟩ := resolve_final h final
  obtain ⟨t, ht⟩ := exists_step_answer (B := MemoryStore.backend) leads waits
    inTime (.ok response)
  refine ⟨t, ht, ?_⟩
  have hstep : s.answer MemoryStore.backend c.call (.ok response) = some t := ht
  unfold System.answer at hstep
  simp only [leads, waits, Option.all_some, decide_eq_true inTime, if_true,
    hresolve, Option.some.injEq] at hstep
  subst hstep
  exact ⟨rfl, hs.outcome?_of_finish (List.mem_of_find?_eq_some leads) rfl⟩

-- ============================================================ repetitions

/-- A request that is about to be looked up can be. -/
theorem exists_step_attempt {e : Event} {site : Nat} {caller : CallerId}
    {r : Prepared} (attempts : u.attempt? e = some (site, caller, r)) :
    ∃ v, u.step MemoryStore.backend e = some v := by
  rcases attempt?_spec attempts with ⟨q, i, key, rfl, hi, -, -⟩
    | ⟨w, rfl, hw, hover, -, -, rfl, -⟩
  · exact exists_step_arrive hi caller q
  · exact exists_step_wake hw hover

/-- A request that is looked up while the key has the entry is given it. -/
theorem repeated (h : u.store.WellStored) {e : Event} {site : Nat}
    {caller : CallerId} {r : Prepared}
    (attempts : u.attempt? e = some (site, caller, r)) {f : Entry}
    (live : u.live? r.fingerprint.entryKey = some f)
    (hgives : Gives f fp response) (hown : r.fingerprint.id = fp.id) :
    ∃ v x, u.step MemoryStore.backend e = some v
      ∧ v.replies = u.replies ++ [(caller, .ok x)]
      ∧ x.Mirrors response ∧ x.replayed = true := by
  obtain ⟨v, hv⟩ := exists_step_attempt attempts
  obtain ⟨policy, joined, b, -, hb, hattempt, -⟩ := step_attempt attempts hv
  have hsame : b.store.WellStored ∧ b.live? r.fingerprint.entryKey = some f
      ∧ b.replies = u.replies := by
    rcases hb with rfl | rfl
    · exact ⟨h, live, rfl⟩
    · exact ⟨h, live, rfl⟩
  obtain ⟨hstored, hlive, hreplies⟩ := hsame
  have honce := (attempt_found (found_of_live hstored hlive) caller site policy
    joined).replies
  rw [hgives.recalled hown, hreplies, ← hattempt] at honce
  exact ⟨v, _, hv, honce, hgives.mirrors true, rfl⟩

/-- A flight that comes to a result while the key has a live entry has come
to that entry. -/
theorem result_of_live (h : u.store.WellStored) (hu : u.Coherent) {e : Event}
    (hstep : u.step MemoryStore.backend e = some v) {m : Leader}
    (hm : m ∈ u.leaders) {f : Entry} (live : u.live? m.guard.key = some f)
    {result : Resolution} (hends : v.outcome? m.site m.guard.id
      = some (.completed (.ok result))) : result = ⟨f, false⟩ := by
  obtain ⟨st, metrics, hclose⟩ := (step_deed hstep).close hu hm hends
  have hending := hclose.ending h
  generalize hhow : FlightEnd.completed (Except.ok (ε := ProxyError) result)
    = how at hending
  cases hending with
  | found l entry leads idle there =>
      cases hhow
      rw [Option.some.inj (there.symm.trans live)]
  | held l c response entry leads waits inTime final there =>
      cases hhow
      rw [Option.some.inj (there.symm.trans live)]
  | stored l c response leads waits inTime final free =>
      rw [free] at live
      cases live
  | unanswered | unfinal | late | died => cases hhow

-- ============================================================= the origin

/-- In time the origin has answered a call for this operation, made under the
key, with a final response. -/
def Given (s₀ s : System MemoryStore) (key : EntryKey) (fp : Fingerprint)
    (response : Response) : Prop :=
  ∃ u v l c, Reaches Operation.Plain s₀ u ∧ u.leaderOf c.call = some l
    ∧ l.waiting = some c ∧ u.elapsed ≤ c.deadline
    ∧ l.policy.isDefinitive response.status = true
    ∧ l.guard.key = key ∧ l.request.fingerprint = fp
    ∧ u.step MemoryStore.backend (.answer c.call (.ok response)) = some v
    ∧ Reaches Operation.Plain v s

theorem Given.next {s₀ : System MemoryStore} {key : EntryKey}
    (h : Given s₀ s key fp response) (passage : Passage Operation.Plain s t) :
    Given s₀ t key fp response := by
  obtain ⟨u, v, l, c, hu, leads, waits, inTime, final, hkey, hfp, hv, hs⟩ := h
  exact ⟨u, v, l, c, hu, leads, waits, inTime, final, hkey, hfp, hv,
    .next hs passage trivial⟩

/-- All that is stored the origin has given. -/
theorem given_of_held {s₀ : System MemoryStore} (h₀ : s₀.store = .empty)
    (reached : Reaches Operation.Plain s₀ s) {key : EntryKey} {e : Entry}
    (held : s.store.held? key = some e) :
    ∃ fp response, Given s₀ s key fp response ∧ Gives e fp response := by
  induction reached generalizing e with
  | here => rw [h₀] at held; cases held
  | @next s t before passage _ ih =>
      have hs := before.wellStored (h₀ ▸ wellStored_empty)
      rcases passage.inherits hs fun _ plain => plain with
        hinherits | ⟨l, c, response, hstep, leads, waits, inTime, final, fits,
          hstore⟩
      · obtain ⟨f, hf, hsame⟩ := hinherits key e held
        obtain ⟨fp, response, hgiven, hgives⟩ := ih hf
        exact ⟨fp, response, hgiven.next passage, hgives.sameResult hsame⟩
      · rw [hstore, held?_writeEntry (fits_entryFor fits ..)] at held
        by_cases hkey : key = l.guard.key
        · rw [if_pos hkey] at held
          cases held
          exact ⟨_, response, ⟨s, t, l, c, before, leads, waits, inTime, final,
            hkey.symm, rfl, hstep, .here trivial⟩, .ofResponse ..⟩
        · rw [if_neg hkey] at held
          obtain ⟨fp, response, hgiven, hgives⟩ := ih held
          exact ⟨fp, response, hgiven.next passage, hgives⟩

/-- The entry that the flight of a final response comes to is the one that the
key holds then, and gives what the origin has given: this response, unless the
key had a live entry. -/
theorem given_of_answer {s₀ : System MemoryStore} (h₀ : s₀.store = .empty)
    (reached : Reaches Operation.Plain s₀ s) (hc : s.Coherent)
    (leads : s.leaderOf c.call = some l) (waits : l.waiting = some c)
    (inTime : s.elapsed ≤ c.deadline)
    (final : l.policy.isDefinitive response.status = true)
    (fits : response.Fits) :
    ∃ t fp first e,
      s.step MemoryStore.backend (.answer c.call (.ok response)) = some t
      ∧ Given s₀ t l.guard.key fp first ∧ Gives e fp first
      ∧ t.outcome? l.site l.guard.id = some (.completed (.ok
          ⟨e, !(s.live? l.guard.key).isSome⟩))
      ∧ t.store.held? l.guard.key = some e
      ∧ (s.live? l.guard.key = none →
        first = response ∧ fp = l.request.fingerprint) := by
  have hs := reached.wellStored (h₀ ▸ wellStored_empty)
  obtain ⟨t, ht, hstore, hover⟩ := answer_final hs hc leads waits inTime final
  unfold MemoryStore.insert at hstore
  cases hlive : s.live? l.guard.key with
  | none =>
      rw [show s.store.live? s.now l.guard.key = none from hlive] at hstore
      rw [hlive] at hover
      refine ⟨t, _, response, _, ht, ⟨s, t, l, c, reached, leads, waits,
        inTime, final, rfl, rfl, ht, .here trivial⟩, .ofResponse .., hover, ?_,
        fun _ => ⟨rfl, rfl⟩⟩
      rw [hstore, held?_writeEntry (fits_entryFor fits ..), if_pos rfl]
  | some e =>
      rw [show s.store.live? s.now l.guard.key = some e from hlive] at hstore
      rw [hlive] at hover
      have hheld := (live?_eq_some.mp hlive).1
      obtain ⟨fp, first, hgiven, hgives⟩ := given_of_held h₀ reached hheld
      refine ⟨t, fp, first, e, ht,
        hgiven.next (.event (.answer c.call (.ok response)) fits ht), hgives,
        hover, ?_, fun hnone => by cases hnone⟩
      rw [hstore]
      exact hheld

-- ============================================================ the theorem

/-- Any number of instances share a store that starts empty; they and others
who read it, refresh it or swap in it do what they like, and may be started
again from a snapshot. Let a leader's call then be answered in time with a
final response. From there on one response is what callers of its operation
are given: everyone who waits for the flight, at whatever later time it is
woken, and as long as the key stays live, through refreshes, restarts and
whatever else, everyone who is looked up and everyone whose flight comes to a
result. The origin has given it to a call under this key; it is the one just
given, unless another was in the store already. -/
theorem replays_faithful (wall : Int) (policies : List Policy)
    (reached : Reaches Operation.Plain (start wall .empty policies) s)
    (leads : s.leaderOf c.call = some l) (waits : l.waiting = some c)
    (inTime : s.elapsed ≤ c.deadline)
    (final : l.policy.isDefinitive response.status = true)
    (fits : response.Fits) :
    ∃ t fp first,
      s.step MemoryStore.backend (.answer c.call (.ok response)) = some t
      ∧ Given (start wall .empty policies) t l.guard.key fp first
      ∧ (s.live? l.guard.key = none →
        first = response ∧ fp = l.request.fingerprint)
      ∧ Told t l fp first (s.live? l.guard.key).isSome
      ∧ ∀ u, Descends (fun _ => True) (fun u => u.live? l.guard.key ≠ none)
          t u →
        (∀ e site caller r, u.attempt? e = some (site, caller, r) →
          r.fingerprint.entryKey = l.guard.key → r.fingerprint.id = fp.id →
          ∃ v x, u.step MemoryStore.backend e = some v
            ∧ v.replies = u.replies ++ [(caller, .ok x)]
            ∧ x.Mirrors first ∧ x.replayed = true)
        ∧ ∀ e v m result, u.step MemoryStore.backend e = some v →
          m ∈ u.leaders → m.guard.key = l.guard.key →
          v.outcome? m.site m.guard.id = some (.completed (.ok result)) →
          Told v m fp first true := by
  have hs := reached.wellStored wellStored_empty
  have hc := reached.coherent (coherent_start ..)
  obtain ⟨t, fp, first, e, ht, hgiven, hgives, hover, hheld, hown⟩ :=
    given_of_answer rfl reached hc leads waits inTime final fits
  have hpassage : Passage Operation.Plain s t :=
    .event (.answer c.call (.ok response)) fits ht
  have htc := hpassage.coherent hc
  have htl := hpassage.wellStored hs
  refine ⟨t, fp, first, ht, hgiven, hown, ?_, fun u hu => ?_⟩
  · have htold := told_of_outcome htc hgives hover
    rwa [Bool.not_not] at htold
  · have hul := hu.wellStored htl
    have huc := hu.coherent htc
    obtain ⟨e₀, he₀⟩ := Option.ne_none_iff_exists'.mp hu.first
    obtain rfl : e₀ = e :=
      Option.some.inj ((live?_eq_some.mp he₀).1.symm.trans hheld)
    obtain ⟨f, hf⟩ := Option.ne_none_iff_exists'.mp hu.holds
    have hf' := hgives.sameResult (hu.sameResult htl he₀ hf)
    refine ⟨fun e site caller r attempts hkey hown => ?_,
      fun e v m result hv hm hkey hends => ?_⟩
    · rw [← hkey] at hf
      exact repeated hul attempts hf hf' hown
    · rw [← hkey] at hf
      obtain rfl := result_of_live hul huc hv hm hf hends
      exact told_of_outcome (huc.shift (step_deed hv).shift) hf' hends

/-- A response with a field that comes twice, a value that is no text, and
fields of the connection. -/
def Sample.accepted : Response where
  status := ⟨202, by decide, by decide⟩
  headers := ⟨[(⟨"set-cookie", by decide⟩, ⟨[97], by decide⟩),
    (⟨"x-trace", by decide⟩, ⟨[255, 128], by decide⟩),
    (⟨"set-cookie", by decide⟩, ⟨[98], by decide⟩),
    (.connection, ⟨[122], by decide⟩), (⟨"z", by decide⟩, ⟨[49], by decide⟩),
    (.contentLength, ⟨[51], by decide⟩)]⟩
  body := [4, 0, 255]

theorem Sample.fits_accepted : Sample.accepted.Fits := by decide

/-- Two callers wait for the answer to a call. -/
def called : List Event :=
  [.arrive 0 0 Sample.order, .arrive 0 1 Sample.order, .lead 0 0]

theorem fits_called : ∀ e ∈ called, e.Fits := by decide +kernel

theorem run_called :
    ∃ s l c, (start 0 .empty [Sample.refreshing]).run MemoryStore.backend
        called = some s
      ∧ s.leaderOf c.call = some l ∧ l.waiting = some c ∧ c.call = 0
      ∧ s.elapsed ≤ c.deadline
      ∧ l.policy.isDefinitive Sample.accepted.status = true
      ∧ l.site = 0 ∧ l.guard.id = 0
      ∧ l.guard.key = Fingerprint.addressOf Sample.orderKey
      ∧ l.request.fingerprint
        = (Sample.order.prepare Sample.orderKey).fingerprint
      ∧ s.live? (Fingerprint.addressOf Sample.orderKey) = none := by
  have hview : ((start 0 .empty [Sample.refreshing]).run MemoryStore.backend
      called).bind (fun s => (s.leaderOf 0).bind fun l =>
        l.waiting.map fun c => decide (c.call = 0 ∧ s.elapsed ≤ c.deadline
          ∧ l.policy.isDefinitive Sample.accepted.status = true
          ∧ l.site = 0 ∧ l.guard.id = 0
          ∧ l.guard.key = Fingerprint.addressOf Sample.orderKey
          ∧ l.request.fingerprint
            = (Sample.order.prepare Sample.orderKey).fingerprint
          ∧ (s.live? (Fingerprint.addressOf Sample.orderKey)).isNone = true))
        = some true := by decide +kernel
  obtain ⟨s, hs, hview⟩ := Option.bind_eq_some_iff.mp hview
  obtain ⟨l, hl, hview⟩ := Option.bind_eq_some_iff.mp hview
  obtain ⟨c, hc, hview⟩ := Option.map_eq_some_iff.mp hview
  obtain ⟨hcall, htime, hfinal, hsite, hid, hkey, hfp, hnone⟩ :=
    of_decide_eq_true hview
  exact ⟨s, l, c, hs, hcall ▸ hl, hc, hcall, htime, hfinal, hsite, hid, hkey,
    hfp, Option.isNone_iff_eq_none.mp hnone⟩

/-- The call is answered. -/
def answered : List Event := called ++ [.answer 0 (.ok Sample.accepted)]

theorem waiter_answered :
    ∀ t, (start 0 .empty [Sample.refreshing]).run MemoryStore.backend answered
        = some t →
      ∃ w, t.waiters.find? (·.caller = 1) = some w ∧ w.caller = 1
        ∧ w.site = 0 ∧ w.flight = 0 ∧ w.request.fingerprint
          = (Sample.order.prepare Sample.orderKey).fingerprint := by
  intro t ht
  have hview : ((start 0 .empty [Sample.refreshing]).run MemoryStore.backend
      answered).bind (fun t => (t.waiters.find? (·.caller = 1)).map fun w =>
        decide (w.caller = 1 ∧ w.site = 0 ∧ w.flight = 0
          ∧ w.request.fingerprint
            = (Sample.order.prepare Sample.orderKey).fingerprint))
        = some true := by decide +kernel
  rw [ht] at hview
  obtain ⟨w, hw, hview⟩ := Option.map_eq_some_iff.mp hview
  exact ⟨w, hw, of_decide_eq_true hview⟩

/-- Later a repetition moves the expiry. -/
def refreshed : List Event := [.advance 1000, .arrive 0 2 Sample.order]

theorem fits_refreshed : ∀ e ∈ refreshed, e.Fits := by decide +kernel

/-- After the answer the entry stays live, while it is refreshed, saved and
loaded. -/
theorem descends_reloaded {t : System MemoryStore}
    (ht : (start 0 .empty [Sample.refreshing]).run MemoryStore.backend answered
      = some t) :
    ∃ u store, t.run MemoryStore.backend refreshed = some u
      ∧ load 5000 (save u.store u.now) = .ok store
      ∧ Descends (fun _ => True)
        (fun u => u.live? (Fingerprint.addressOf Sample.orderKey) ≠ none) t
        (start 5000 store [Sample.policy]) := by
  have hlives : ∀ past ∈ refreshed.inits,
      ((start 0 .empty [Sample.refreshing]).run MemoryStore.backend
        (answered ++ past)).map (fun u =>
          (u.live? (Fingerprint.addressOf Sample.orderKey)).isSome)
        = some true := by decide +kernel
  have hloads : ((start 0 .empty [Sample.refreshing]).run MemoryStore.backend
      (answered ++ refreshed)).bind (fun u =>
        (load 5000 (save u.store u.now)).toOption.map fun store => decide
          (u.store.records.length < 2 ^ 64
          ∧ (∀ p ∈ u.store.records, p.2.value.length < 2 ^ 64)
          ∧ ((start 5000 store [Sample.policy]).live?
            (Fingerprint.addressOf Sample.orderKey)).isSome = true))
        = some true := by decide +kernel
  obtain ⟨u, hu, hview⟩ := Option.bind_eq_some_iff.mp hloads
  obtain ⟨store, hload, hview⟩ := Option.map_eq_some_iff.mp hview
  obtain ⟨hcount, hvalues, hlive⟩ := of_decide_eq_true hview
  have hload : load 5000 (save u.store u.now) = .ok store := by
    cases hresult : load 5000 (save u.store u.now) with
    | error e => rw [hresult] at hload; cases hload
    | ok st => rw [hresult] at hload; cases hload; rfl
  rw [run_append, ht] at hu
  refine ⟨u, store, hu, hload, .next (.run fits_refreshed hu
    fun past b hpast hb hdead => ?_)
    (.restarted 5000 [Sample.policy] store u.store.records (.refl _)
      ⟨hcount, hvalues⟩ hload) fun hdead => ?_⟩
  · have hb' := hlives past ((List.mem_inits ..).mpr hpast)
    rw [run_append, ht, Option.bind_some, hb, Option.map_some, hdead] at hb'
    cases hb'
  · rw [hdead] at hlive
    cases hlive

/-- One of those who wait is given the response, and so is a caller after a
refresh and a restart. -/
theorem replays_faithful_restarted :
    ∃ t v x u store w y,
      (start 0 .empty [Sample.refreshing]).run MemoryStore.backend answered
        = some t
      ∧ t.step MemoryStore.backend (.wake 1) = some v
      ∧ v.replies = t.replies ++ [(1, .ok x)]
      ∧ x.Mirrors Sample.accepted ∧ x.replayed = false
      ∧ t.run MemoryStore.backend refreshed = some u
      ∧ load 5000 (save u.store u.now) = .ok store
      ∧ (start 5000 store [Sample.policy]).step MemoryStore.backend
        (.arrive 0 7 Sample.order) = some w
      ∧ w.replies = [(7, .ok y)]
      ∧ y.Mirrors Sample.accepted ∧ y.replayed = true := by
  obtain ⟨s, l, c, hs, hl, hc, hcall, htime, hfinal, hsite, hid, hkey, hfp,
    hnone⟩ := run_called
  rw [← hkey] at hnone
  have hreached : Reaches Operation.Plain (start 0 .empty [Sample.refreshing])
    s := .run fits_called hs fun _ _ _ _ => trivial
  obtain ⟨t, fp, first, ht, -, hown, htold, hlater⟩ :=
    replays_faithful 0 [Sample.refreshing] hreached hl hc htime hfinal
      Sample.fits_accepted
  obtain ⟨rfl, rfl⟩ := hown hnone
  rw [hcall] at ht
  have hrun := run_concat hs ht
  -- one who waits is woken
  obtain ⟨w, hw, hcaller, hsite', hflight, hfp'⟩ := waiter_answered t hrun
  obtain ⟨v, x, hv, hreply, hx, hfresh⟩ := htold [] t rfl w
    (by rw [hcaller]; exact hw) ⟨hsite'.trans hsite.symm, hflight.trans hid.symm⟩
    (by rw [hfp', hfp])
  rw [hcaller] at hv hreply
  rw [hnone] at hfresh
  -- a repetition is given what was loaded
  obtain ⟨u, store, hu, hload, hdescends⟩ := descends_reloaded hrun
  rw [← hkey] at hdescends
  have hattempts : (start 5000 store [Sample.policy]).attempt?
      (.arrive 0 7 Sample.order)
        = some (0, 7, Sample.order.prepare Sample.orderKey) :=
    attempt?_arrive rfl (by decide +kernel) 7
  obtain ⟨z, y, hz, hreply', hy, hold⟩ :=
    (hlater _ hdescends).1 _ 0 7 _ hattempts hkey.symm (by rw [hfp])
  exact ⟨t, v, x, u, store, z, y, hrun, hv, hreply, hx, hfresh, hu, hload, hz,
    hreply', hy, hold⟩

end System

end OnceProxy.Proxy
