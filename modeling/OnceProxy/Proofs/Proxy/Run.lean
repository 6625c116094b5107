/-
Runs: what holds along every sequence of events.

A run is looked at through its instants: `after? events i` is the system
after the first `i` of its events. What holds at the start and is kept by
every step holds at every instant (`after_induction`); the invariants of
store and flights are instances of that, and with them every step is a move
(`move_induction`). An instant may refer to earlier ones, so properties with
a history need no system that carries one.

# Persistence

Entries leave the store by expiring and in no other way. Where the clock
never runs backwards, an entry that was live once is still live, possibly
with a later expiry, or its expiry has passed (`live_or_expired`); and as
long as a key has a live entry, it is one result (`same_while_live`).
-/
import Mathlib.Algebra.Group.Int.Defs
import OnceProxy.Proofs.Proxy.Storage

namespace OnceProxy.Proxy.System

open Store MemoryStore

-- ============================================================== instants

/-- The system after the first events, as many as are asked for. -/
def after? (s₀ : System MemoryStore) (events : List Event) (i : Nat) :
    Option (System MemoryStore) :=
  s₀.run MemoryStore.backend (events.take i)

section Instants

variable {s₀ : System MemoryStore} {events : List Event}

theorem after?_zero : s₀.after? events 0 = some s₀ := rfl

/-- One event later. -/
theorem after?_succ {i : Nat} {e : Event} (he : events[i]? = some e) :
    s₀.after? events (i + 1)
      = (s₀.after? events i).bind (·.step MemoryStore.backend e) := by
  unfold after? run
  rw [List.take_add_one, he, List.foldlM_append]
  cases List.foldlM (step MemoryStore.backend) s₀ (events.take i) with
  | none => rfl
  | some s => simp

/-- The step between two instants. -/
theorem step_of_after {i : Nat} {e : Event} (he : events[i]? = some e)
    {s t : System MemoryStore} (hs : s₀.after? events i = some s)
    (ht : s₀.after? events (i + 1) = some t) :
    s.step MemoryStore.backend e = some t := by
  rw [after?_succ he, hs, Option.bind_some] at ht
  exact ht

/-- The instant after a step. -/
theorem after_step {i : Nat} {e : Event} (he : events[i]? = some e)
    {s t : System MemoryStore} (hs : s₀.after? events i = some s)
    (hstep : s.step MemoryStore.backend e = some t) :
    s₀.after? events (i + 1) = some t := by
  rw [after?_succ he, hs]
  exact hstep

/-- Before an instant there was one after each event. -/
theorem exists_after {i j : Nat} (hij : i ≤ j) {t : System MemoryStore}
    (ht : s₀.after? events j = some t) :
    ∃ s, s₀.after? events i = some s := by
  induction j generalizing t with
  | zero =>
      obtain rfl := Nat.le_zero.mp hij
      exact ⟨t, ht⟩
  | succ j ih =>
      rcases Nat.le_succ_iff.mp hij with hle | rfl
      · cases he : events[j]? with
        | some e =>
            rw [after?_succ he] at ht
            obtain ⟨s, hs, -⟩ := Option.bind_eq_some_iff.mp ht
            exact ih hle hs
        | none =>
            have hlen := List.getElem?_eq_none_iff.mp he
            have hsame : s₀.after? events (j + 1) = s₀.after? events j := by
              unfold after?
              rw [List.take_of_length_le hlen,
                List.take_of_length_le (Nat.le_succ_of_le hlen)]
            rw [hsame] at ht
            exact ih hle ht
      · exact ⟨t, ht⟩

/-- What holds at an instant and is kept by every later step holds from
then on. -/
theorem after_induction {P : Nat → System MemoryStore → Prop} {i : Nat}
    {s : System MemoryStore} (hs : s₀.after? events i = some s)
    (start : P i s)
    (next : ∀ n e u v, i ≤ n → events[n]? = some e →
      s₀.after? events n = some u → P n u →
      u.step MemoryStore.backend e = some v → P (n + 1) v)
    {j : Nat} (hij : i ≤ j) (hj : j ≤ events.length)
    {t : System MemoryStore} (ht : s₀.after? events j = some t) : P j t := by
  induction j generalizing t with
  | zero =>
      obtain rfl := Nat.le_zero.mp hij
      rw [hs] at ht
      cases ht
      exact start
  | succ j ih =>
      rcases Nat.le_succ_iff.mp hij with hle | rfl
      · have he := List.getElem?_eq_getElem hj
        obtain ⟨u, hu⟩ := exists_after (Nat.le_succ j) ht
        exact next j _ u t hle he hu
          (ih hle (Nat.le_of_succ_le hj) hu) (step_of_after he hu ht)
      · rw [hs] at ht
        cases ht
        exact start

end Instants

-- ============================================================ invariants

/-- A start from which the invariants hold: entries in the store, and
nobody at work. -/
structure Fresh (s₀ : System MemoryStore) : Prop where
  wellStored : s₀.store.WellStored
  coherent : s₀.Coherent
  outcomes : ∀ site id, s₀.outcome? site id = none
  leaders : s₀.leaders = []
  waiters : s₀.waiters = []
  passers : s₀.passers = []
  replies : s₀.replies = []

theorem fresh_start (wall : Int) {store : MemoryStore}
    (h : store.WellStored) (policies : List Policy) :
    (start wall store policies).Fresh :=
  ⟨h, coherent_start wall store policies, outcome?_start wall store policies,
    rfl, rfl, rfl, rfl⟩

section Runs

variable {s₀ : System MemoryStore} {events : List Event}
  (fresh : s₀.Fresh) (fits : ∀ e ∈ events, e.Fits)

include fresh fits

/-- At every instant the store holds entries, and the flights are
coherent. -/
theorem invariants_after {i : Nat} (hi : i ≤ events.length)
    {s : System MemoryStore} (hs : s₀.after? events i = some s) :
    s.store.WellStored ∧ s.Coherent := by
  refine after_induction (P := fun _ s => s.store.WellStored ∧ s.Coherent)
    after?_zero ⟨fresh.wellStored, fresh.coherent⟩
    (fun n e u v _ he _ hu hstep => ?_) (Nat.zero_le i) hi hs
  have hmove : Move u e v := ⟨hu.1, hstep⟩
  have hchange := hmove.writing.change (fits e (List.mem_of_getElem? he))
  exact ⟨hchange.wellStored hu.1, hu.2.shift hmove.deed.shift⟩

/-- The move between two instants. -/
theorem move_of_after {i : Nat} {e : Event} (he : events[i]? = some e)
    {s t : System MemoryStore} (hs : s₀.after? events i = some s)
    (ht : s₀.after? events (i + 1) = some t) : Move s e t := by
  have hi := List.getElem?_eq_some_iff.mp he |>.1
  exact ⟨(invariants_after fresh fits (Nat.le_of_lt hi) hs).1,
    step_of_after he hs ht⟩

/-- The change of the store between two instants. -/
theorem change_of_after {i : Nat} (hi : i < events.length)
    {s t : System MemoryStore} (hs : s₀.after? events i = some s)
    (ht : s₀.after? events (i + 1) = some t) :
    Change s.now s.store t.store := by
  have he := List.getElem?_eq_getElem hi
  exact (move_of_after fresh fits he hs ht).writing.change
    (fits _ (List.getElem_mem hi))

/-- What holds at an instant and is kept by every later move, from a system
in which the invariants hold, holds from then on. -/
theorem move_induction {P : Nat → System MemoryStore → Prop} {i : Nat}
    {s : System MemoryStore} (hs : s₀.after? events i = some s)
    (start : P i s)
    (next : ∀ n e u v, i ≤ n → events[n]? = some e →
      s₀.after? events n = some u → s₀.after? events (n + 1) = some v →
      u.store.WellStored ∧ u.Coherent → Move u e v → P n u → P (n + 1) v)
    {j : Nat} (hij : i ≤ j) (hj : j ≤ events.length)
    {t : System MemoryStore} (ht : s₀.after? events j = some t) : P j t := by
  refine after_induction hs start (fun n e u v hin he hu hP hstep => ?_)
    hij hj ht
  have hn := (List.getElem?_eq_some_iff.mp he).1
  have hv := after_step he hu hstep
  exact next n e u v hin he hu hv
    (invariants_after fresh fits (Nat.le_of_lt hn) hu)
    (move_of_after fresh fits he hu hv) hP

-- =============================================================== flights

/-- The event at an instant ends the flight of a leader. -/
def EndedAt (s₀ : System MemoryStore) (events : List Event) (n : Nat)
    (l : Leader) (how : FlightEnd Outcome) : Prop :=
  ∃ e u v, events[n]? = some e ∧ s₀.after? events n = some u
    ∧ s₀.after? events (n + 1) = some v ∧ Ending u e l how v.store
    ∧ v.outcome? l.site l.guard.id = some how

/-- Every end on record was given by the flight's leader. -/
theorem ended_of_outcome? {i : Nat} (hi : i ≤ events.length)
    {s : System MemoryStore} (hs : s₀.after? events i = some s) {site : Nat}
    {id : FlightId} {how : FlightEnd Outcome}
    (h : s.outcome? site id = some how) :
    ∃ n l, n < i ∧ l.site = site ∧ l.guard.id = id
      ∧ EndedAt s₀ events n l how := by
  refine move_induction fresh fits
    (P := fun i s => s.outcome? site id = some how →
      ∃ n l, n < i ∧ l.site = site ∧ l.guard.id = id
        ∧ EndedAt s₀ events n l how) after?_zero (fun h => ?_)
    (fun n e u v _ he hu hv hinv hmove hP h => ?_) (Nat.zero_le i) hi hs h
  · rw [fresh.outcomes] at h
    cases h
  · have hold : u.outcome? site id = some how → ∃ m l, m < n + 1
        ∧ l.site = site ∧ l.guard.id = id ∧ EndedAt s₀ events m l how := by
      intro h
      obtain ⟨m, l, hm, hrest⟩ := hP h
      exact ⟨m, l, Nat.lt_succ_of_lt hm, hrest⟩
    rcases hinv.2.outcome?_shift hmove.deed.shift with
      hsame | ⟨l, end₁, m, hclose, -, hends⟩
    · rw [hsame] at h
      exact hold h
    · by_cases hit : site = l.site ∧ id = l.guard.id
      · have hend := hends site id
        rw [if_pos hit, h] at hend
        cases hend
        obtain ⟨rfl, rfl⟩ := hit
        exact ⟨n, l, Nat.lt_succ_self n, rfl, rfl, e, u, v, he, hu, hv,
          hclose.ending hmove.stored, h⟩
      · rw [hends, if_neg hit] at h
        exact hold h

/-- The end of a flight stays what it is. -/
theorem outcome?_after {i j : Nat} (hij : i ≤ j) (hj : j ≤ events.length)
    {s t : System MemoryStore} (hs : s₀.after? events i = some s)
    (ht : s₀.after? events j = some t) {site : Nat} {id : FlightId}
    {how : FlightEnd Outcome} (h : s.outcome? site id = some how) :
    t.outcome? site id = some how := by
  refine move_induction fresh fits
    (P := fun _ t => t.outcome? site id = some how) hs h
    (fun n e u v _ he hu hv hinv hmove hP => ?_) hij hj ht
  exact hinv.2.outcome?_keep hmove.deed.shift hP

/-- A flight in progress is still in progress, or its leader has ended
it. -/
theorem slot_or_ended_after {i j : Nat} (hij : i ≤ j)
    (hj : j ≤ events.length) {s t : System MemoryStore}
    (hs : s₀.after? events i = some s) (ht : s₀.after? events j = some t)
    {site : Nat} {key : EntryKey} {id : FlightId}
    (hslot : (key, id) ∈ s.slots site) :
    (key, id) ∈ t.slots site ∨ ∃ n l how, i ≤ n ∧ n < j ∧ l.site = site
      ∧ l.guard = ⟨key, id⟩ ∧ EndedAt s₀ events n l how := by
  refine move_induction fresh fits (P := fun j t =>
    (key, id) ∈ t.slots site ∨ ∃ n l how, i ≤ n ∧ n < j ∧ l.site = site
      ∧ l.guard = ⟨key, id⟩ ∧ EndedAt s₀ events n l how) hs (.inl hslot)
    (fun n e u v hin he hu hv hinv hmove hP => ?_) hij hj ht
  rcases hP with hslot | ⟨m, l, how, him, hmn, hrest⟩
  · rcases hinv.2.slot_or_ended hmove.deed.shift hslot with
      hslot' | ⟨l, how, m, hclose, rfl, hguard, hend⟩
    · exact .inl hslot'
    · refine .inr ⟨n, l, how, hin, Nat.lt_succ_self n, rfl, hguard,
        e, u, v, he, hu, hv, hclose.ending hmove.stored, ?_⟩
      rw [hguard]
      exact hend
  · exact .inr ⟨m, l, how, him, Nat.lt_succ_of_lt hmn, hrest⟩

/-- A leader that waits for its call still does, or its flight has ended. -/
theorem leader_or_ended_after {i j : Nat} (hij : i ≤ j)
    (hj : j ≤ events.length) {s t : System MemoryStore}
    (hs : s₀.after? events i = some s) (ht : s₀.after? events j = some t)
    {l : Leader} (hl : l ∈ s.leaders) {c : OpenCall}
    (hc : l.waiting = some c) :
    l ∈ t.leaders
      ∨ ∃ n how, i ≤ n ∧ n < j ∧ EndedAt s₀ events n l how := by
  refine move_induction fresh fits (P := fun j t => l ∈ t.leaders
      ∨ ∃ n how, i ≤ n ∧ n < j ∧ EndedAt s₀ events n l how) hs (.inl hl)
    (fun n e u v hin he hu hv hinv hmove hP => ?_) hij hj ht
  rcases hP with hlead | ⟨m, how, him, hmn, hrest⟩
  · rcases hinv.2.leader_stays hmove.deed.shift hlead with
      hstay | ⟨hidle, -⟩ | ⟨how, m, hclose, hend⟩
    · exact .inl hstay
    · rw [hc] at hidle
      cases hidle
    · exact .inr ⟨n, how, hin, Nat.lt_succ_self n,
        e, u, v, he, hu, hv, hclose.ending hmove.stored, hend⟩
  · exact .inr ⟨m, how, him, Nat.lt_succ_of_lt hmn, hrest⟩

-- =========================================================== persistence

/-- The clock never runs backwards. -/
def Steady (s₀ : System MemoryStore) (events : List Event) : Prop :=
  ∀ i j s t, i ≤ j → j ≤ events.length → s₀.after? events i = some s →
    s₀.after? events j = some t → s.now ≤ t.now

/-- The milliseconds by which an event moves the wall clock on. -/
def advance : Event → Nat
  | .advance ms => ms
  | _ => 0

omit fresh fits in
/-- Nothing else moves it. -/
theorem Move.wall {s t : System MemoryStore} {e : Event}
    (h : Move s e t) : t.wall = s.wall + advance e := by
  have hwall := congrArg Prod.fst h.deed.tick
  cases e with
  | advance ms => exact hwall
  | arrive | lead | answer | timeout | crash | wake | leave | elapse
  | setPolicy | sweep => exact hwall.trans (Int.add_zero _).symm

/-- The wall clock at an instant. -/
theorem wall_after {i : Nat} (hi : i ≤ events.length)
    {s : System MemoryStore} (hs : s₀.after? events i = some s) :
    s.wall = s₀.wall + ((events.take i).map advance).sum := by
  refine move_induction fresh fits (P := fun i s =>
    s.wall = s₀.wall + ((events.take i).map advance).sum) after?_zero
    (by simp) (fun n e u v _ he _ _ _ hmove hP => ?_) (Nat.zero_le i) hi hs
  rw [hmove.wall, hP, List.take_add_one, he]
  simp only [Option.toList_some, List.map_append, List.map_cons,
    List.map_nil, List.sum_append, List.sum_cons, List.sum_nil]
  omega

/-- The clock never runs backwards if it never comes to 2^64. -/
theorem steady_of_wall_lt
    (h : s₀.wall + (events.map advance).sum < 2 ^ 64) :
    Steady s₀ events := by
  intro i j s t hij hj hs ht
  have hsums : ∀ {m n : Nat}, m ≤ n → ((events.take m).map advance).sum
      ≤ ((events.take n).map advance).sum := by
    intro m n hmn
    rw [← List.take_append_drop m (events.take n), List.take_take,
      Nat.min_eq_left hmn, List.map_append, List.sum_append]
    exact Nat.le_add_right ..
  have hlow := hsums hij
  have hhigh := hsums hj
  rw [List.take_length] at hhigh
  have hs' := wall_after fresh fits (Nat.le_trans hij hj) hs
  have ht' := wall_after fresh fits hj ht
  unfold now
  rw [UInt64.le_iff_toNat_le, UInt64.toNat_ofNat', UInt64.toNat_ofNat']
  omega

/-- An entry that was live is live, with the same result and no earlier
expiry, or its expiry has passed. -/
theorem live_or_expired (steady : Steady s₀ events) {i j : Nat} (hij : i ≤ j)
    (hj : j ≤ events.length) {s t : System MemoryStore}
    (hs : s₀.after? events i = some s) (ht : s₀.after? events j = some t)
    {k : EntryKey} {e : Entry} (he : s.live? k = some e) :
    (∃ f, t.live? k = some f ∧ e.sameResult f = true
      ∧ e.expiresAt ≤ f.expiresAt) ∨ e.expiresAt ≤ t.now := by
  refine move_induction fresh fits (P := fun _ t =>
    (∃ f, t.live? k = some f ∧ e.sameResult f = true
      ∧ e.expiresAt ≤ f.expiresAt) ∨ e.expiresAt ≤ t.now) hs
    (.inl ⟨e, he, e.sameResult_refl, UInt64.le_refl _⟩)
    (fun n a u v _ ha hu hv hinv _ hP => ?_) hij hj ht
  have hn := (List.getElem?_eq_some_iff.mp ha).1
  have hclock := steady n (n + 1) u v (Nat.le_succ n) hn hu hv
  rcases hP with ⟨f, hf, hsame, hle⟩ | hexpired
  · -- the event keeps what is live, but the clock may pass its expiry
    obtain ⟨g, hg, hfg, hfge⟩ :=
      (change_of_after fresh fits hn hu hv).keeps hinv.1 hf
    by_cases hlive : v.now < g.expiresAt
    · exact .inl ⟨g, live?_eq_some.mpr ⟨hg, hlive⟩,
        Entry.sameResult_trans hsame hfg, UInt64.le_trans hle hfge⟩
    · exact .inr (UInt64.le_trans hle
        (UInt64.le_trans hfge (UInt64.not_lt.mp hlive)))
  · exact .inr (UInt64.le_trans hexpired hclock)

/-- As long as a key has a live entry, it is one result. -/
theorem same_while_live {i j : Nat} (hij : i ≤ j) (hj : j ≤ events.length)
    {k : EntryKey}
    (hlive : ∀ n u, i ≤ n → n ≤ j → s₀.after? events n = some u →
      u.live? k ≠ none)
    {s t : System MemoryStore} (hs : s₀.after? events i = some s)
    (ht : s₀.after? events j = some t) {e f : Entry}
    (he : s.live? k = some e) (hf : t.live? k = some f) :
    e.sameResult f = true := by
  have hsame := move_induction fresh fits (P := fun n u => n ≤ j →
      ∃ g, u.live? k = some g ∧ e.sameResult g = true) hs
    (fun _ => ⟨e, he, e.sameResult_refl⟩)
    (fun n a u v hin ha hu hv hinv _ hP hnj => ?_) hij hj ht
  · obtain ⟨g, hg, hsame⟩ := hsame (Nat.le_refl j)
    rw [hf] at hg
    cases hg
    exact hsame
  · have hn := (List.getElem?_eq_some_iff.mp ha).1
    obtain ⟨g, hg, hsame⟩ := hP (Nat.le_of_succ_le hnj)
    obtain ⟨o, ho, hgo, -⟩ :=
      (change_of_after fresh fits hn hu hv).keeps hinv.1 hg
    cases hq : v.live? k with
    | none => exact absurd hq (hlive (n + 1) v (Nat.le_succ_of_le hin) hnj hv)
    | some q =>
        have hheld := (live?_eq_some.mp hq).1
        rw [ho] at hheld
        cases hheld
        exact ⟨_, rfl, Entry.sameResult_trans hsame hgo⟩

end Runs

end OnceProxy.Proxy.System
