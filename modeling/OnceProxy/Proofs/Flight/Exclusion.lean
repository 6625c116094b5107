/-
Mutual exclusion at the flight table: for a key, one guard outstanding at
most, and a slot exactly as long as there is one.

The whole follows from one invariant, `Orderly`: the guards outstanding are
the slots, one for one and in the same order. A slot is freed by a guard
whose key and number it carries, and no number is given out twice, so the
other slots stay where they are when a guard is given back, whichever of the
two ways it goes (`mem_slots_ended`).

# The numbers

Flights are numbered by a natural number here. No number is as large as the
number of joins so far (`nextId_le`), so that a counter of 64 bits gives out
the same numbers for the first 2⁶⁴ joins.
-/
import OnceProxy.Flight.Traffic
import OnceProxy.Proofs.Flight

namespace OnceProxy.Traffic

open FlightTable

variable {α : Type} {t u : Traffic α} {a : Act α}

-- ======================================================= what a step does

/-- The guard that an act gives back, and the end that its flight has then. -/
def Act.ends? : Act α → Option (FlightGuard × FlightEnd α)
  | .complete g outcome => some (g, .completed outcome)
  | .drop g => some (g, .aborted)
  | _ => none

/-- What a step can do to the table and to those who use it. -/
inductive Change (t : Traffic α) (a : Act α) (u : Traffic α) : Prop where
  | joined (key : EntryKey) (ha : a = .join key)
      (table : u.table = (t.table.join key).2.2)
      (guards : u.guards = match (t.table.join key).1 with
        | .leader => ⟨key, (t.table.join key).2.1⟩ :: t.guards
        | .follower => t.guards)
      (handles : u.handles = (t.table.join key).2.1 :: t.handles)
      (rest : u.waits = t.waits ∧ u.heard = t.heard)
  | ended (g : FlightGuard) (how : FlightEnd α) (ha : a.ends? = some (g, how))
      (held : g ∈ t.guards)
      (hu : u = { t with table := t.table.finish g how
                         guards := t.guards.erase g })
  | kept (ha : a.ends? = none) (hj : ∀ key, a ≠ .join key)
      (table : u.table = t.table) (guards : u.guards = t.guards)
      (inUse : ∀ h ∈ u.inUse, h ∈ t.inUse)
      (heard : ∀ p ∈ u.heard, p ∈ t.heard ∨ t.table.outcome? p.1 = some p.2)

theorem mem_inUse {h : FlightId} :
    h ∈ t.inUse ↔ h ∈ t.handles ∨ h ∈ t.waits ∨ ∃ how, (h, how) ∈ t.heard := by
  simp [inUse]

theorem step_change (h : t.step a = some u) : Change t a u := by
  cases a with
  | join key =>
      cases h
      exact .joined key rfl rfl rfl rfl ⟨rfl, rfl⟩
  | complete g outcome =>
      simp only [step, Option.ite_none_right_eq_some, Option.some.injEq] at h
      obtain ⟨hg, rfl⟩ := h
      exact .ended g (.completed outcome) rfl hg (by rw [complete_eq])
  | drop g =>
      simp only [step, Option.ite_none_right_eq_some, Option.some.injEq] at h
      obtain ⟨hg, rfl⟩ := h
      exact .ended g .aborted rfl hg (by rw [abandon_eq])
  | clone i =>
      simp only [step, Option.ite_none_right_eq_some, Option.some.injEq] at h
      obtain ⟨hi, rfl⟩ := h
      refine .kept rfl (by simp) rfl rfl ?_ fun p hp => .inl hp
      intro j hj
      simp only [mem_inUse, List.mem_cons] at hj ⊢
      rcases hj with (rfl | hj) | hj
      · exact .inl hi
      · exact .inl hj
      · exact .inr hj
  | discard i =>
      simp only [step, Option.ite_none_right_eq_some, Option.some.injEq] at h
      obtain ⟨hi, rfl⟩ := h
      refine .kept rfl (by simp) rfl rfl ?_ fun p hp => .inl hp
      intro j hj
      simp only [mem_inUse] at hj ⊢
      exact hj.imp_left List.mem_of_mem_erase
  | wait i =>
      simp only [step, Option.ite_none_right_eq_some, Option.some.injEq] at h
      obtain ⟨hi, rfl⟩ := h
      refine .kept rfl (by simp) rfl rfl ?_ fun p hp => .inl hp
      intro j hj
      simp only [mem_inUse, List.mem_cons] at hj ⊢
      rcases hj with hj | (rfl | hj) | hj
      · exact .inl (List.mem_of_mem_erase hj)
      · exact .inl hi
      · exact .inr (.inl hj)
      · exact .inr (.inr hj)
  | hear i =>
      simp only [step, Option.ite_none_right_eq_some, Option.bind_eq_bind,
        Option.bind_eq_some_iff] at h
      obtain ⟨hi, how, hhow, hu⟩ := h
      cases hu
      refine .kept rfl (by simp) rfl rfl ?_ ?_
      · intro j hj
        simp only [mem_inUse, List.mem_append, List.mem_singleton] at hj ⊢
        rcases hj with hj | hj | ⟨how', hj | hj⟩
        · exact .inl hj
        · exact .inr (.inl (List.mem_of_mem_erase hj))
        · exact .inr (.inr ⟨how', hj⟩)
        · cases hj
          exact .inr (.inl hi)
      · intro p hp
        rcases List.mem_append.mp hp with hp' | hp'
        · exact .inl hp'
        · cases List.mem_singleton.mp hp'
          exact .inr hhow
  | forsake i =>
      simp only [step, Option.ite_none_right_eq_some, Option.some.injEq] at h
      obtain ⟨hi, rfl⟩ := h
      refine .kept rfl (by simp) rfl rfl ?_ fun p hp => .inl hp
      intro j hj
      simp only [mem_inUse] at hj ⊢
      exact hj.imp_right (.imp_left List.mem_of_mem_erase)

-- ============================================================ the invariant

/-- The table is sound, its slots are the guards outstanding, and what waits
have yielded are the ends of their flights. -/
structure Orderly (t : Traffic α) : Prop where
  sound : t.table.Sound
  guards : t.guards = t.table.slots.map fun p => ⟨p.1, p.2⟩
  heard : ∀ p ∈ t.heard, t.table.outcome? p.1 = some p.2

theorem orderly_empty : (empty : Traffic α).Orderly :=
  ⟨sound_empty, rfl, fun _ hp => absurd hp List.not_mem_nil⟩

/-- A guard is outstanding exactly if its slot is taken. -/
theorem Orderly.mem_guards (h : t.Orderly) {g : FlightGuard} :
    g ∈ t.guards ↔ (g.key, g.id) ∈ t.table.slots := by
  rw [h.guards, List.mem_map]
  constructor
  · rintro ⟨p, hp, rfl⟩
    exact hp
  · intro hg
    exact ⟨_, hg, rfl⟩

/-- No key has two guards outstanding. -/
theorem Orderly.nodup_keys (h : t.Orderly) : (t.guards.map (·.key)).Nodup := by
  rw [h.guards, List.map_map]
  exact h.sound.keys

/-- The guards that are left when one is given back. -/
theorem Orderly.guards_finish (h : t.Orderly) (g : FlightGuard)
    (how : FlightEnd α) :
    t.guards.erase g
      = (t.table.finish g how).slots.map fun p => ⟨p.1, p.2⟩ := by
  have hnodup : t.guards.Nodup := h.nodup_keys.of_map _
  rw [hnodup.erase_eq_filter, h.guards, List.filter_map]
  show List.map _ _ = List.map _ (t.table.slots.filter _)
  congr 2
  funext p
  obtain ⟨k, i⟩ := p
  obtain ⟨q, j⟩ := g
  by_cases hk : k = q <;> by_cases hi : i = j <;> simp [hk, hi]

/-- Outcomes after a guard has been given back: those that there were, and
that of its flight. -/
theorem Orderly.outcome?_keep (h : t.Orderly) {g : FlightGuard}
    (hg : g ∈ t.guards) (how : FlightEnd α) {id : FlightId} {e : FlightEnd α}
    (he : t.table.outcome? id = some e) :
    (t.table.finish g how).outcome? id = some e := by
  have hopen := h.sound.apart _ (h.mem_guards.mp hg)
  have hne : id ≠ g.id := by
    rintro rfl
    rw [hopen] at he
    cases he
  rw [outcome?_finish, if_neg hne]
  exact he

theorem Orderly.step (h : t.Orderly) (hs : t.step a = some u) :
    u.Orderly := by
  cases step_change hs with
  | joined key ha table guards handles rest =>
      refine ⟨by rw [table]; exact h.sound.join key, ?_, ?_⟩
      · cases hk : t.table.slots.lookup key with
        | some id => rw [guards, table, join_of_some hk]; exact h.guards
        | none =>
            rw [guards, table, join_of_none hk]
            show (⟨key, t.table.nextId⟩ : FlightGuard) :: t.guards = _
            rw [h.guards]
            rfl
      · rw [rest.2, table]
        intro p hp
        rw [outcome?_join]
        exact h.heard p hp
  | ended g how ha held hu =>
      subst hu
      have hslot := h.mem_guards.mp held
      exact ⟨h.sound.finish hslot how, h.guards_finish g how,
        fun p hp => h.outcome?_keep held how (h.heard p hp)⟩
  | kept ha hj table guards inUse heard =>
      refine ⟨by rw [table]; exact h.sound, by rw [guards, table, h.guards], ?_⟩
      rw [table]
      intro p hp
      exact (heard p hp).elim (h.heard p) id

theorem run_cons {acts : List (Act α)} {v : Traffic α}
    (h : t.run (a :: acts) = some v) :
    ∃ u, t.step a = some u ∧ u.run acts = some v := by
  unfold run at h
  rw [List.foldlM_cons] at h
  exact Option.bind_eq_some_iff.mp h

theorem Orderly.run {acts : List (Act α)} (h : t.Orderly)
    (hr : t.run acts = some u) : u.Orderly := by
  induction acts generalizing t with
  | nil =>
      cases hr
      exact h
  | cons a acts ih =>
      obtain ⟨v, hv, hrest⟩ := run_cons hr
      exact ih (h.step hv) hrest

-- =========================================================== what follows

/-- Joining makes a leader exactly where no guard for the key is
outstanding. -/
theorem Orderly.join_leader_iff (h : t.Orderly) (key : EntryKey) :
    (t.table.join key).1 = .leader ↔ ∀ g ∈ t.guards, g.key ≠ key := by
  cases hk : t.table.slots.lookup key with
  | some id =>
      rw [join_of_some hk]
      have hg : (⟨key, id⟩ : FlightGuard) ∈ t.guards :=
        h.mem_guards.mpr (Association.mem_of_lookup hk)
      constructor
      · intro hrole
        cases hrole
      · intro hfree
        exact absurd rfl (hfree _ hg)
  | none =>
      rw [join_of_none hk]
      refine ⟨fun _ g hg hkey => ?_, fun _ => rfl⟩
      subst hkey
      exact Association.lookup_eq_none.mp hk
        (List.mem_map_of_mem (h.mem_guards.mp hg))

/-- Giving a guard back frees its slot, and no other. -/
theorem Orderly.mem_slots_ended (h : t.Orderly) {g : FlightGuard}
    {how : FlightEnd α} (ha : a.ends? = some (g, how))
    (hs : t.step a = some u) (p : EntryKey × FlightId) :
    p ∈ u.table.slots ↔ p ∈ t.table.slots ∧ p ≠ (g.key, g.id) := by
  cases step_change hs with
  | joined key hjoin =>
      subst hjoin
      cases ha
  | ended g' how' ha' held hu =>
      cases ha.symm.trans ha'
      subst hu
      rw [← Prod.eta p, h.sound.mem_finish (h.mem_guards.mp held) how]
      constructor
      · rintro ⟨hp, hne⟩
        exact ⟨hp, fun heq => hne (Prod.ext_iff.mp heq).2⟩
      · rintro ⟨hp, hne⟩
        refine ⟨hp, fun hid => hne ?_⟩
        rw [hid] at hp
        exact Prod.ext (h.sound.key_unique hp (h.mem_guards.mp held)) hid
  | kept hnone =>
      rw [hnone] at ha
      cases ha

def Act.isJoin : Act α → Bool
  | .join _ => true
  | _ => false

/-- The next number is no larger than the number of joins. -/
theorem nextId_le {acts : List (Act α)} (h : t.run acts = some u) :
    u.table.nextId ≤ t.table.nextId + acts.countP Act.isJoin := by
  induction acts generalizing t with
  | nil =>
      cases h
      exact Nat.le_add_right ..
  | cons a acts ih =>
      obtain ⟨v, hv, hrest⟩ := run_cons h
      have hle := ih hrest
      rw [List.countP_cons]
      cases step_change hv with
      | joined key ha table =>
          have hone : v.table.nextId ≤ t.table.nextId + 1 := by
            rw [table]
            unfold join
            split <;> simp
          subst ha
          simp only [Act.isJoin, if_true, FlightId] at *
          omega
      | ended g how ha held hu =>
          have hsame : v.table.nextId = t.table.nextId := by rw [hu]; rfl
          simp only [FlightId] at *
          omega
      | kept ha hj table =>
          rw [table] at hle
          simp only [FlightId] at *
          omega

-- =============================================================== exclusion

/-- After any calls in any order: a key has a slot exactly if one guard for
it is outstanding, and that guard's number is in it; a join makes a leader
exactly where there is none; no two outstanding guards share a key, and
there are as many as flights in progress; a guard that is given back frees
no slot but its own. The numbers of flights stay below that of the joins. -/
theorem mutual_exclusion {acts : List (Act α)}
    (h : empty.run acts = some u) :
    (∀ key id, u.table.slots.lookup key = some id ↔ ⟨key, id⟩ ∈ u.guards)
    ∧ (∀ key, (u.table.slots.lookup key).isSome
        ↔ ∃! g : FlightGuard, g ∈ u.guards ∧ g.key = key)
    ∧ (∀ key, (u.table.join key).1 = .leader ↔ ∀ g ∈ u.guards, g.key ≠ key)
    ∧ (u.guards.map (·.key)).Nodup
    ∧ u.table.inFlight = u.guards.length
    ∧ (∀ a g how v, a.ends? = some (g, how) → u.step a = some v →
        ∀ p, p ∈ v.table.slots ↔ p ∈ u.table.slots ∧ p ≠ (g.key, g.id))
    ∧ (∀ g ∈ u.guards, g.id < acts.countP Act.isJoin) := by
  have ho := orderly_empty.run h
  have hslot : ∀ key id, u.table.slots.lookup key = some id
      ↔ (⟨key, id⟩ : FlightGuard) ∈ u.guards := by
    intro key id
    rw [ho.mem_guards]
    exact ⟨Association.mem_of_lookup, Association.lookup_of_mem ho.sound.keys⟩
  refine ⟨hslot, ?_, ho.join_leader_iff, ho.nodup_keys, ?_,
    fun a g how v ha hs => ho.mem_slots_ended ha hs, ?_⟩
  · intro key
    rw [Option.isSome_iff_exists]
    constructor
    · rintro ⟨id, hid⟩
      refine ⟨⟨key, id⟩, ⟨(hslot key id).mp hid, rfl⟩, ?_⟩
      rintro g ⟨hg, rfl⟩
      exact List.inj_on_of_nodup_map ho.nodup_keys hg ((hslot g.key id).mp hid)
        rfl
    · rintro ⟨g, ⟨hg, rfl⟩, -⟩
      exact ⟨g.id, (hslot g.key g.id).mpr hg⟩
  · rw [ho.guards, List.length_map]
    rfl
  · intro g hg
    have hlt := ho.sound.slot_lt _ (ho.mem_guards.mp hg)
    have hle := nextId_le h
    have hzero : (empty : Traffic α).table.nextId = 0 := rfl
    simp only [FlightId] at *
    omega

namespace Sample

/-- A flight with a follower, one of another key beside it, and the next one
of the first key before the first one's follower has heard. -/
def relay : List (Act Nat) :=
  [.join (.ofNat 7), .join (.ofNat 7), .join (.ofNat 8), .wait 0,
    .complete ⟨.ofNat 7, 0⟩ 42, .join (.ofNat 7), .hear 0,
    .drop ⟨.ofNat 8, 1⟩]

def relayed : Traffic Nat where
  table := ⟨[(.ofNat 7, 2)], 3, [(1, .aborted), (0, .completed 42)]⟩
  guards := [⟨.ofNat 7, 2⟩]
  handles := [2, 1, 0]
  waits := []
  heard := [(0, .completed 42)]

theorem run_relay : empty.run relay = some relayed := by
  with_unfolding_all rfl

end Sample

/-- One flight is left of three, that of the first key. -/
theorem mutual_exclusion_relay :
    empty.run Sample.relay = some Sample.relayed
    ∧ (∃! g : FlightGuard,
        g ∈ Sample.relayed.guards ∧ g.key = .ofNat 7)
    ∧ (Sample.relayed.table.join (.ofNat 8)).1 = .leader
    ∧ Sample.relayed.table.inFlight = 1 := by
  obtain ⟨-, hslot, hjoin, -, hcount, -⟩ :=
    mutual_exclusion Sample.run_relay
  exact ⟨Sample.run_relay, (hslot _).mp (by decide),
    (hjoin _).mpr (by decide), hcount⟩

end OnceProxy.Traffic
