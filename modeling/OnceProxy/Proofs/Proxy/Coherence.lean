/-
Coherence: every leader's flight is in progress.

What a leader may do rests on its guard, and the guard is worth something
only as long as the flight it names has its slot. `Coherent` ties the two
lists together, the leaders of a system and the slots of its instances'
tables. Three things change either of them: a request that starts a flight,
a leader that starts its call, and the end of a flight (`Shift`). Each has
one lemma, and `Coherent.shift` puts them together, whatever answers the
store.

# What follows from it

A flight in progress keeps its slot until a leader of it ends it
(`Coherent.slot_or_ended`), and its end never changes afterwards
(`Coherent.outcome?_keep`). A slot that was free is taken only by the
request that starts a flight there (`slot_taken`). What a waiting caller
learns goes through these three.
-/
import OnceProxy.Proofs.Proxy.Steps

namespace OnceProxy.Proxy.System

open Store

-- ================================================================ tables

section Tables

variable {σ : Type} (s : System σ)

/-- Only the flights of one instance change. -/
theorem table?_updateFlights (site : Nat)
    (f : FlightTable Outcome → FlightTable Outcome) (n : Nat) :
    (s.updateFlights site f).table? n
      = if n = site then (s.table? n).map f else s.table? n := by
  unfold table? updateFlights
  rw [List.getElem?_modify]
  by_cases hn : site = n
  · subst hn
    rw [if_pos rfl]
    cases s.instances[site]? with
    | none => rfl
    | some i => simp
  · rw [if_neg (fun h => hn h.symm)]
    simp only [if_neg hn, id_map']

/-- One instance joins a flight. -/
theorem table?_join {site : Nat} {u : FlightTable Outcome}
    (hu : s.table? site = some u) (key : EntryKey) (n : Nat) :
    (s.updateFlights site fun t => (t.join key).2.2).table? n
      = if n = site then some (u.join key).2.2 else s.table? n := by
  rw [table?_updateFlights]
  by_cases hn : n = site
  · subst hn
    rw [if_pos rfl, if_pos rfl, hu]
    rfl
  · rw [if_neg hn, if_neg hn]

/-- A new policy leaves the flights alone. -/
theorem table?_setPolicy (site : Nat) (policy : Policy) (n : Nat) :
    ({ s with
        instances := s.instances.modify site fun i =>
          { i with policy := policy } }).table? n = s.table? n := by
  unfold table?
  simp only [List.getElem?_modify]
  cases s.instances[n]? with
  | none => rfl
  | some i =>
      by_cases hn : site = n
      · simp [hn]
      · simp [hn]

theorem table?_finishFlight (l : Leader) (how : FlightEnd Outcome) (n : Nat) :
    (s.finishFlight l how).table? n
      = if n = l.site then (s.table? n).map (·.finish l.guard how)
        else s.table? n :=
  table?_updateFlights s l.site (·.finish l.guard how) n

variable {s}

/-- A slot belongs to a table. -/
theorem mem_slots {site : Nat} {p : EntryKey × FlightId} :
    p ∈ s.slots site ↔ ∃ t, s.table? site = some t ∧ p ∈ t.slots := by
  unfold slots
  cases s.table? site with
  | none => simp
  | some t => simp

/-- Tables say what is in progress and what is over. -/
theorem slots_congr {s t : System σ} {n : Nat}
    (h : t.table? n = s.table? n) : t.slots n = s.slots n := by
  unfold slots
  rw [h]

theorem outcome?_congr {s t : System σ} {n : Nat}
    (h : t.table? n = s.table? n) (id : FlightId) :
    t.outcome? n id = s.outcome? n id := by
  unfold outcome?
  rw [h]

/-- The flights in progress after one has started: one more. -/
theorem mem_slots_launch {s t : System σ} {site : Nat} {u : FlightTable Outcome}
    (hu : s.table? site = some u) {key : EntryKey}
    (hfree : u.slots.lookup key = none)
    (htable : ∀ n, t.table? n
      = if n = site then some (u.join key).2.2 else s.table? n)
    {n : Nat} {p : EntryKey × FlightId} :
    p ∈ t.slots n ↔ p ∈ s.slots n ∨ n = site ∧ p = (key, u.nextId) := by
  rw [mem_slots, mem_slots, htable]
  by_cases hn : n = site
  · subst hn
    rw [if_pos rfl, hu, FlightTable.join_of_none hfree]
    simp [or_comm]
  · rw [if_neg hn]
    simp [hn]

/-- A flight that starts ends no other. -/
theorem outcome?_launch {s t : System σ} {site : Nat}
    {u : FlightTable Outcome} (hu : s.table? site = some u) {key : EntryKey}
    (htable : ∀ n, t.table? n
      = if n = site then some (u.join key).2.2 else s.table? n)
    (n : Nat) (id : FlightId) : t.outcome? n id = s.outcome? n id := by
  unfold outcome?
  rw [htable]
  by_cases hn : n = site
  · subst hn
    rw [if_pos rfl, hu, Option.bind_some, Option.bind_some,
      FlightTable.outcome?_join]
  · rw [if_neg hn]

end Tables

-- ============================================================= coherence

/-- The tables are sound, every leader's flight is in progress under its
request's key, and no flight has two leaders. -/
structure Coherent {σ : Type} (s : System σ) : Prop where
  sound : ∀ site t, s.table? site = some t → t.Sound
  flying : ∀ l ∈ s.leaders, (l.guard.key, l.guard.id) ∈ s.slots l.site
  keyed : ∀ l ∈ s.leaders, l.guard.key = l.request.fingerprint.entryKey
  single : ∀ l ∈ s.leaders, ∀ m ∈ s.leaders,
    l.site = m.site → l.guard.id = m.guard.id → l = m

/-- At the start no flight is in progress or over. -/
theorem table?_start {σ : Type} (wall : Int) (store : σ)
    (policies : List Policy) {site : Nat} {t : FlightTable Outcome}
    (ht : (start wall store policies).table? site = some t) :
    t = .empty := by
  unfold table? start at ht
  rw [List.getElem?_map, Option.map_map] at ht
  obtain ⟨p, -, rfl⟩ := Option.map_eq_some_iff.mp ht
  rfl

theorem outcome?_start {σ : Type} (wall : Int) (store : σ)
    (policies : List Policy) (site : Nat) (id : FlightId) :
    (start wall store policies).outcome? site id = none := by
  unfold outcome?
  cases ht : (start wall store policies).table? site with
  | none => rfl
  | some t =>
      rw [table?_start wall store policies ht]
      rfl

/-- A system with nobody at work is coherent. -/
theorem coherent_start {σ : Type} (wall : Int) (store : σ)
    (policies : List Policy) : (start wall store policies).Coherent := by
  refine ⟨fun site t ht => ?_, fun l hl => absurd hl List.not_mem_nil,
    fun l hl => absurd hl List.not_mem_nil,
    fun l hl => absurd hl List.not_mem_nil⟩
  rw [table?_start wall store policies ht]
  exact FlightTable.sound_empty

namespace Coherent

variable {σ : Type} {s t : System σ}

/-- Coherence is about tables and leaders only. -/
theorem congr (h : s.Coherent) (htable : ∀ n, t.table? n = s.table? n)
    (hleaders : t.leaders = s.leaders) : t.Coherent := by
  refine ⟨fun site u hu => ?_, fun l hl => ?_, fun l hl => ?_,
    fun l hl m hm => ?_⟩
  · rw [htable] at hu
    exact h.sound site u hu
  · rw [hleaders] at hl
    rw [slots_congr (htable l.site)]
    exact h.flying l hl
  · rw [hleaders] at hl
    exact h.keyed l hl
  · rw [hleaders] at hl hm
    exact h.single l hl m hm

/-- A leader's flight has not ended. -/
theorem unended (h : s.Coherent) {site : Nat} {key : EntryKey}
    {id : FlightId} (hin : (key, id) ∈ s.slots site) :
    s.outcome? site id = none := by
  obtain ⟨u, hu, hmem⟩ := mem_slots.mp hin
  unfold outcome?
  rw [hu]
  exact (h.sound site u hu).apart _ hmem

/-- A key has one flight in progress at an instance. -/
theorem slot_unique (h : s.Coherent) {site : Nat} {key : EntryKey}
    {id id' : FlightId} (hin : (key, id) ∈ s.slots site)
    (hin' : (key, id') ∈ s.slots site) : id = id' := by
  obtain ⟨u, hu, hmem⟩ := mem_slots.mp hin
  obtain ⟨v, hv, hmem'⟩ := mem_slots.mp hin'
  rw [hu] at hv
  cases hv
  exact (h.sound _ u hu).id_unique hmem hmem'

/-- A flight in progress has one key. -/
theorem slot_key_unique (h : s.Coherent) {site : Nat} {key key' : EntryKey}
    {id : FlightId} (hin : (key, id) ∈ s.slots site)
    (hin' : (key', id) ∈ s.slots site) : key = key' := by
  obtain ⟨u, hu, hmem⟩ := mem_slots.mp hin
  obtain ⟨v, hv, hmem'⟩ := mem_slots.mp hin'
  rw [hu] at hv
  cases hv
  exact (h.sound _ u hu).key_unique hmem hmem'

/-- Leaders of one key at one instance are one leader. -/
theorem single_key (h : s.Coherent) {l m : Leader} (hl : l ∈ s.leaders)
    (hm : m ∈ s.leaders) (hsite : l.site = m.site)
    (hkey : l.guard.key = m.guard.key) : l = m := by
  have hfl := h.flying l hl
  have hfm := h.flying m hm
  rw [hsite, hkey] at hfl
  exact h.single l hl m hm hsite (h.slot_unique hfl hfm)

-- =============================================================== ending

/-- The leaders after one's flight has ended: all others. -/
theorem mem_leaders_finishFlight (h : s.Coherent) {l m : Leader}
    (hl : l ∈ s.leaders) (how : FlightEnd Outcome) :
    m ∈ (s.finishFlight l how).leaders ↔ m ∈ s.leaders ∧ m ≠ l := by
  unfold finishFlight
  rw [List.mem_filter]
  constructor
  · rintro ⟨hm, hne⟩
    refine ⟨hm, ?_⟩
    rintro rfl
    simp at hne
  · rintro ⟨hm, hne⟩
    refine ⟨hm, ?_⟩
    by_cases hsame : m.site = l.site ∧ m.guard = l.guard
    · have := h.single m hm l hl hsame.1 (congrArg (·.id) hsame.2)
      exact absurd this hne
    · rcases not_and_or.mp hsame with hne | hne <;> simp [hne]

/-- The flights in progress after one has ended: all others. -/
theorem mem_slots_finishFlight (h : s.Coherent) {l : Leader}
    (hl : l ∈ s.leaders) (how : FlightEnd Outcome) {n : Nat}
    {key : EntryKey} {id : FlightId} :
    (key, id) ∈ (s.finishFlight l how).slots n
      ↔ (key, id) ∈ s.slots n ∧ ¬(n = l.site ∧ id = l.guard.id) := by
  rw [mem_slots, mem_slots, table?_finishFlight]
  by_cases hn : n = l.site
  · subst hn
    obtain ⟨u, hu, hmem⟩ := mem_slots.mp (h.flying l hl)
    have hsound := h.sound _ u hu
    rw [if_pos rfl, hu]
    simp [hsound.mem_finish hmem how]
  · rw [if_neg hn]
    simp [hn]

/-- The ends after one more flight has ended. -/
theorem outcome?_finishFlight (h : s.Coherent) {l : Leader}
    (hl : l ∈ s.leaders) (how : FlightEnd Outcome) (n : Nat)
    (id : FlightId) :
    (s.finishFlight l how).outcome? n id
      = if n = l.site ∧ id = l.guard.id then some how
        else s.outcome? n id := by
  unfold outcome?
  rw [table?_finishFlight]
  by_cases hn : n = l.site
  · subst hn
    obtain ⟨u, hu, -⟩ := mem_slots.mp (h.flying l hl)
    rw [if_pos rfl, hu]
    simp [FlightTable.outcome?_finish]
  · rw [if_neg hn]
    simp [hn]

/-- The end of a leader's flight is on record. -/
theorem outcome?_of_finish (h : s.Coherent) {l : Leader}
    (hl : l ∈ s.leaders) {how : FlightEnd Outcome}
    (htable : t.table? l.site = (s.finishFlight l how).table? l.site) :
    t.outcome? l.site l.guard.id = some how := by
  rw [outcome?_congr htable, h.outcome?_finishFlight hl how]
  exact if_pos ⟨rfl, rfl⟩

/-- The end of a leader's flight keeps a system coherent. -/
theorem finish (h : s.Coherent) {l : Leader} (hl : l ∈ s.leaders)
    (how : FlightEnd Outcome) : (s.finishFlight l how).Coherent := by
  refine ⟨fun n u hu => ?_, fun m hm => ?_, fun m hm => ?_,
    fun m hm o ho => ?_⟩
  · rw [table?_finishFlight] at hu
    split at hu
    · next hn =>
      subst hn
      obtain ⟨v, hv, hmem⟩ := mem_slots.mp (h.flying l hl)
      rw [hv] at hu
      cases hu
      exact (h.sound _ v hv).finish hmem how
    · exact h.sound n u hu
  · obtain ⟨hm', hne⟩ := (h.mem_leaders_finishFlight hl how).mp hm
    refine (h.mem_slots_finishFlight hl how).mpr ⟨h.flying m hm', ?_⟩
    rintro ⟨hsite, hid⟩
    exact hne (h.single m hm' l hl hsite hid)
  · exact h.keyed m ((h.mem_leaders_finishFlight hl how).mp hm).1
  · exact h.single m ((h.mem_leaders_finishFlight hl how).mp hm).1
      o ((h.mem_leaders_finishFlight hl how).mp ho).1

-- ============================================================= starting

/-- A started flight keeps a system coherent. -/
theorem launch (h : s.Coherent) {site : Nat} {u : FlightTable Outcome}
    (hu : s.table? site = some u) {r : Prepared} {policy : Policy}
    (hfree : u.slots.lookup r.fingerprint.entryKey = none)
    (htable : ∀ n, t.table? n
      = if n = site then some (u.join r.fingerprint.entryKey).2.2
        else s.table? n)
    (hleaders : t.leaders = s.leaders
      ++ [⟨site, ⟨r.fingerprint.entryKey, u.nextId⟩, r, policy, none⟩]) :
    t.Coherent := by
  have hmem : ∀ l, l ∈ t.leaders ↔ l ∈ s.leaders
      ∨ l = ⟨site, ⟨r.fingerprint.entryKey, u.nextId⟩, r, policy, none⟩ := by
    intro l
    rw [hleaders, List.mem_append, List.mem_singleton]
  -- numbers of flights in progress have been given out before
  have hfresh : ∀ l ∈ s.leaders, l.site = site → l.guard.id ≠ u.nextId := by
    rintro l hl rfl hid
    obtain ⟨v, hv, hin⟩ := mem_slots.mp (h.flying l hl)
    rw [hu] at hv
    cases hv
    have hlt := (h.sound _ u hu).slot_lt _ hin
    rw [show l.guard.id = u.nextId from hid] at hlt
    exact Nat.lt_irrefl _ hlt
  refine ⟨fun n v hv => ?_, fun l hl => ?_, fun l hl => ?_,
    fun l hl m hm hsite hid => ?_⟩
  · rw [htable] at hv
    split at hv
    · cases hv
      exact (h.sound site u hu).join _
    · exact h.sound n v hv
  · rw [mem_slots_launch hu hfree htable]
    rcases (hmem l).mp hl with hl' | rfl
    · exact .inl (h.flying l hl')
    · exact .inr ⟨rfl, rfl⟩
  · rcases (hmem l).mp hl with hl' | rfl
    · exact h.keyed l hl'
    · rfl
  · rcases (hmem l).mp hl with hl' | rfl
    · rcases (hmem m).mp hm with hm' | rfl
      · exact h.single l hl' m hm' hsite hid
      · exact absurd hid (hfresh l hl' hsite)
    · rcases (hmem m).mp hm with hm' | rfl
      · exact absurd hid.symm (hfresh m hm' hsite.symm)
      · rfl

-- ============================================================== calling

/-- A leader that starts to wait keeps a system coherent. -/
theorem call (h : s.Coherent) {l : Leader} {c : OpenCall}
    (htable : ∀ n, t.table? n = s.table? n)
    (hleaders : t.leaders = s.leaders.map fun o =>
      if o.site = l.site && o.guard.id = l.guard.id then
        { o with waiting := some c }
      else o) : t.Coherent := by
  -- every leader afterwards is one from before, but for the call
  have hfrom : ∀ m ∈ t.leaders, ∃ o ∈ s.leaders, m.site = o.site
      ∧ m.guard = o.guard ∧ m.request = o.request
      ∧ m = if o.site = l.site && o.guard.id = l.guard.id then
          { o with waiting := some c }
        else o := by
    intro m hm
    rw [hleaders] at hm
    obtain ⟨o, ho, rfl⟩ := List.mem_map.mp hm
    refine ⟨o, ho, ?_, ?_, ?_, rfl⟩ <;> split <;> rfl
  refine ⟨fun n v hv => ?_, fun m hm => ?_, fun m hm => ?_,
    fun m hm n hn hsite hid => ?_⟩
  · rw [htable] at hv
    exact h.sound n v hv
  · obtain ⟨o, ho, hsite, hguard, -, -⟩ := hfrom m hm
    rw [slots_congr (htable m.site), hsite, hguard]
    exact h.flying o ho
  · obtain ⟨o, ho, -, hguard, hreq, -⟩ := hfrom m hm
    rw [hguard, hreq]
    exact h.keyed o ho
  · obtain ⟨o, ho, hos, hog, -, rfl⟩ := hfrom m hm
    obtain ⟨q, hq, hqs, hqg, -, rfl⟩ := hfrom n hn
    rw [hos, hqs] at hsite
    rw [hog, hqg] at hid
    cases h.single o ho q hq hsite hid
    rfl

end Coherent

-- ================================================================ shifts

/-- What a step does to the flights and their leaders. -/
inductive Shift {σ : Type} (B : Backend σ) (s : System σ) (e : Event)
    (t : System σ) : Prop where
  /-- Nothing. -/
  | calm (tables : ∀ n, t.table? n = s.table? n)
      (leaders : t.leaders = s.leaders)
  /-- A flight is started by a request for which the store has nothing. -/
  | launched (site : Nat) (caller : CallerId) (u : FlightTable Outcome)
      (r : Prepared) (policy : Policy)
      (attempts : s.attempt? e = some (site, caller, r))
      (lacking : s.Lacks B r.fingerprint.entryKey)
      (there : s.table? site = some u)
      (free : u.slots.lookup r.fingerprint.entryKey = none)
      (tables : ∀ n, t.table? n
        = if n = site then some (u.join r.fingerprint.entryKey).2.2
          else s.table? n)
      (leaders : t.leaders = s.leaders
        ++ [⟨site, ⟨r.fingerprint.entryKey, u.nextId⟩, r, policy, none⟩])
  /-- A leader starts its call. -/
  | called (l : Leader) (event : e = .lead l.site l.guard.id)
      (leads : s.findLeader l.site l.guard.id = some l)
      (idle : l.waiting = none) (lacking : s.Lacks B l.guard.key)
      (tables : ∀ n, t.table? n = s.table? n)
      (leaders : t.leaders = s.leaders.map fun o =>
        if o.site = l.site && o.guard.id = l.guard.id then
          { o with
            waiting := some
              ⟨s.calls.length, s.elapsed + l.policy.originTimeout⟩ }
        else o)
  /-- A flight ends. -/
  | ended (l : Leader) (how : FlightEnd Outcome) (m : Metrics)
      (close : Close B s e l how t.store m)
      (tables : ∀ n, t.table? n = (s.finishFlight l how).table? n)
      (leaders : t.leaders = (s.finishFlight l how).leaders)

/-- Whoever ends a flight leads it. -/
theorem Close.mem_leaders {σ : Type} {B : Backend σ} {s : System σ}
    {e : Event} {l : Leader} {how : FlightEnd Outcome} {st : σ} {m : Metrics}
    (h : Close B s e l how st m) : l ∈ s.leaders := by
  cases h with
  | failed _ _ _ _ leads | found _ _ _ _ leads
  | answered _ _ _ _ _ _ leads | late _ _ leads | died _ leads =>
      exact List.mem_of_find?_eq_some leads

section Shifts

variable {σ : Type} {B : Backend σ} {s b t : System σ} {e : Event}

/-- An attempt starts a flight or leaves the flights alone; its caller may
have been taken off those that wait before. -/
theorem Try.shift {caller : CallerId} {site : Nat} {r : Prepared}
    {policy : Policy} {joined : Nat}
    (h : Try B b caller site r policy joined t)
    (attempts : s.attempt? e = some (site, caller, r))
    (base : b = s ∨ b = s.dropWaiter caller) : Shift B s e t := by
  have htable : ∀ n, b.table? n = s.table? n := by
    rcases base with rfl | rfl <;> exact fun _ => rfl
  have hleaders : b.leaders = s.leaders := by
    rcases base with rfl | rfl <;> rfl
  cases h with
  | answered x st m found => exact .calm htable hleaders
  | followed id st m m' missed taken => exact .calm htable hleaders
  | led u st m m' missed there free =>
      have hbase : b.Lacks B r.fingerprint.entryKey := lacks_of_lookup missed
      have hlacks : s.Lacks B r.fingerprint.entryKey := by
        rcases base with rfl | rfl <;> exact hbase
      refine .launched site caller u r policy attempts hlacks
        ((htable site).symm.trans there) free (fun n => ?_) ?_
      · rw [← htable n]
        exact table?_join b there r.fingerprint.entryKey n
      · show b.leaders ++ _ = _
        rw [hleaders]

/-- Every deed is a shift. -/
theorem Deed.shift (h : Deed B s e t) : Shift B s e t := by
  cases h with
  | attempted site caller r i key t there keyed attempt =>
      exact attempt.shift (attempt?_arrive there keyed caller) (.inl rfl)
  | retried w t waits isOver more attempt =>
      exact attempt.shift (attempt?_wake waits isOver more) (.inr rfl)
  | called l st m leads idle look =>
      exact .called l rfl leads idle (congrArg Prod.fst look) (fun _ => rfl)
        rfl
  | ended e l how st m close => exact .ended l how m close (fun _ => rfl) rfl
  | policySet site policy => exact .calm (table?_setPolicy s site policy) rfl
  | refused | passed | passerAnswered | passerLate | settled | exhausted
  | left | elapsed | advanced | swept => exact .calm (fun _ => rfl) rfl

end Shifts

namespace Coherent

variable {σ : Type} {B : Backend σ} {s t : System σ} {e : Event}

/-- Every step keeps a system coherent. -/
theorem shift (h : s.Coherent) (hshift : Shift B s e t) : t.Coherent := by
  cases hshift with
  | calm tables leaders => exact h.congr tables leaders
  | launched site caller u r policy attempts lacking there free tables
      leaders =>
      exact h.launch there free tables leaders
  | called l event leads idle lacking tables leaders =>
      exact h.call tables leaders
  | ended l how m close tables leaders =>
      exact (h.finish close.mem_leaders how).congr tables leaders

/-- The ends after a step: those from before, and at most one more. -/
theorem outcome?_shift (h : s.Coherent) (hshift : Shift B s e t) :
    (∀ site id, t.outcome? site id = s.outcome? site id)
      ∨ ∃ l how m, Close B s e l how t.store m
        ∧ t.leaders = (s.finishFlight l how).leaders
        ∧ ∀ site id, t.outcome? site id
          = if site = l.site ∧ id = l.guard.id then some how
            else s.outcome? site id := by
  cases hshift with
  | calm tables leaders => exact .inl fun n => outcome?_congr (tables n)
  | called l event leads idle lacking tables leaders =>
      exact .inl fun n => outcome?_congr (tables n)
  | launched site caller u r policy attempts lacking there free tables
      leaders =>
      exact .inl (outcome?_launch there tables)
  | ended l how m close tables leaders =>
      refine .inr ⟨l, how, m, close, leaders, fun site id => ?_⟩
      rw [← h.outcome?_finishFlight close.mem_leaders how]
      exact outcome?_congr (tables site) id

/-- The end of a flight never changes. -/
theorem outcome?_keep (h : s.Coherent) (hshift : Shift B s e t) {site : Nat}
    {id : FlightId} {how : FlightEnd Outcome}
    (hover : s.outcome? site id = some how) :
    t.outcome? site id = some how := by
  rcases h.outcome?_shift hshift with hsame | ⟨l, end₁, m, close, -, hends⟩
  · rw [hsame]
    exact hover
  · rw [hends, if_neg ?_]
    · exact hover
    · rintro ⟨rfl, rfl⟩
      have hnone := h.unended (h.flying l close.mem_leaders)
      rw [hover] at hnone
      cases hnone

/-- A flight in progress keeps its slot, or its leader ends it. -/
theorem slot_or_ended (h : s.Coherent) (hshift : Shift B s e t) {site : Nat}
    {key : EntryKey} {id : FlightId} (hin : (key, id) ∈ s.slots site) :
    (key, id) ∈ t.slots site ∨ ∃ l how m, Close B s e l how t.store m
      ∧ l.site = site ∧ l.guard = ⟨key, id⟩
      ∧ t.outcome? site id = some how := by
  cases hshift with
  | calm tables leaders =>
      rw [slots_congr (tables site)]
      exact .inl hin
  | called l event leads idle lacking tables leaders =>
      rw [slots_congr (tables site)]
      exact .inl hin
  | launched n caller u r policy attempts lacking there free tables
      leaders =>
      exact .inl ((mem_slots_launch there free tables).mpr (.inl hin))
  | ended l how m close tables leaders =>
      have hl := close.mem_leaders
      by_cases hsame : site = l.site ∧ id = l.guard.id
      · obtain ⟨rfl, rfl⟩ := hsame
        have hkey := h.slot_key_unique (h.flying l hl) hin
        refine .inr ⟨l, how, m, close, rfl, ?_,
          h.outcome?_of_finish hl (tables l.site)⟩
        rw [← hkey]
      · rw [slots_congr (tables site)]
        exact .inl ((h.mem_slots_finishFlight hl how).mpr ⟨hin, hsame⟩)

/-- A slot was taken before, or by a request for which the store has
nothing. -/
theorem slot_taken (h : s.Coherent) (hshift : Shift B s e t) {site : Nat}
    {key : EntryKey} {id : FlightId} (hin : (key, id) ∈ t.slots site) :
    (key, id) ∈ s.slots site
      ∨ ∃ caller r, s.attempt? e = some (site, caller, r)
        ∧ r.fingerprint.entryKey = key ∧ s.Lacks B key := by
  cases hshift with
  | calm tables leaders =>
      rw [slots_congr (tables site)] at hin
      exact .inl hin
  | called l event leads idle lacking tables leaders =>
      rw [slots_congr (tables site)] at hin
      exact .inl hin
  | launched n caller u r policy attempts lacking there free tables
      leaders =>
      rcases (mem_slots_launch there free tables).mp hin with
        hold | ⟨rfl, hnew⟩
      · exact .inl hold
      · cases hnew
        exact .inr ⟨caller, r, attempts, rfl, lacking⟩
  | ended l how m close tables leaders =>
      rw [slots_congr (tables site)] at hin
      exact .inl
        ((h.mem_slots_finishFlight close.mem_leaders how).mp hin).1

/-- A leader is found by its flight. -/
theorem findLeader (h : s.Coherent) {l : Leader} (hl : l ∈ s.leaders) :
    s.findLeader l.site l.guard.id = some l := by
  refine find?_unique hl (by simp) fun m hm hsame => ?_
  rw [Bool.and_eq_true, decide_eq_true_eq, decide_eq_true_eq] at hsame
  exact h.single m hm l hl hsame.1 hsame.2

/-- A leader stays as it is, unless it starts its call or ends its
flight. -/
theorem leader_stays (h : s.Coherent) (hshift : Shift B s e t) {l : Leader}
    (hl : l ∈ s.leaders) :
    l ∈ t.leaders
      ∨ (l.waiting = none ∧ ∃ c, { l with waiting := some c } ∈ t.leaders)
      ∨ ∃ how m, Close B s e l how t.store m
        ∧ t.outcome? l.site l.guard.id = some how := by
  cases hshift with
  | calm tables leaders =>
      rw [leaders]
      exact .inl hl
  | launched n caller u r policy attempts lacking there free tables
      leaders =>
      rw [leaders]
      exact .inl (List.mem_append_left _ hl)
  | called o event leads idle lacking tables leaders =>
      have ho := List.mem_of_find?_eq_some leads
      rw [leaders]
      by_cases hlo : l = o
      · subst hlo
        exact .inr (.inl ⟨idle, _, List.mem_map.mpr
          ⟨l, hl, if_pos (by simp)⟩⟩)
      · refine .inl (List.mem_map.mpr ⟨l, hl, if_neg ?_⟩)
        intro hsame
        rw [Bool.and_eq_true, decide_eq_true_eq, decide_eq_true_eq] at hsame
        exact hlo (h.single l hl o ho hsame.1 hsame.2)
  | ended o how m close tables leaders =>
      have ho := close.mem_leaders
      by_cases hlo : l = o
      · subst hlo
        exact .inr (.inr ⟨how, m, close,
          h.outcome?_of_finish hl (tables l.site)⟩)
      · rw [leaders]
        exact .inl ((h.mem_leaders_finishFlight ho how).mpr ⟨hl, hlo⟩)

end Coherent

end OnceProxy.Proxy.System
