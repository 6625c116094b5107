/-
The flight table: at most one flight in progress for a key, and one end for
each flight.

`Sound` is the invariant of a table. Joining keeps it; ending a flight
keeps it as long as the flight is in progress, which is so for every guard
that is still held (`Proofs/Proxy/Coherence`). The numbers of flights are
what ties the parts together: every number that a slot or an end carries
has been given out, and no number is in both places.
-/
import Mathlib.Data.List.Nodup
import OnceProxy.Flight
import OnceProxy.Proofs.Association

namespace OnceProxy.FlightTable

open Association

variable {α : Type} {t : FlightTable α}

/-- No key and no number is taken twice, and a flight in progress has not
ended. -/
structure Sound (t : FlightTable α) : Prop where
  keys : (t.slots.map (·.1)).Nodup
  ids : (t.slots.map (·.2)).Nodup
  slot_lt : ∀ p ∈ t.slots, p.2 < t.nextId
  ended_lt : ∀ p ∈ t.ended, p.1 < t.nextId
  apart : ∀ p ∈ t.slots, t.outcome? p.2 = none

theorem sound_empty : (empty : FlightTable α).Sound :=
  ⟨List.nodup_nil, List.nodup_nil, fun _ h => absurd h List.not_mem_nil,
    fun _ h => absurd h List.not_mem_nil,
    fun _ h => absurd h List.not_mem_nil⟩

/-- A flight in progress has one key. -/
theorem Sound.key_unique (h : t.Sound) {k q : EntryKey} {id : FlightId}
    (hk : (k, id) ∈ t.slots) (hq : (q, id) ∈ t.slots) : k = q := by
  have hinj := List.inj_on_of_nodup_map h.ids hk hq rfl
  cases hinj
  rfl

/-- A key has one flight in progress. -/
theorem Sound.id_unique (h : t.Sound) {k : EntryKey} {i j : FlightId}
    (hi : (k, i) ∈ t.slots) (hj : (k, j) ∈ t.slots) : i = j := by
  have h₁ := lookup_of_mem h.keys hi
  have h₂ := lookup_of_mem h.keys hj
  rw [h₁] at h₂
  exact Option.some.inj h₂

-- ============================================================== joining

/-- Joining a key with a flight in progress changes nothing. -/
theorem join_of_some {key : EntryKey} {id : FlightId}
    (h : t.slots.lookup key = some id) : t.join key = (.follower, id, t) := by
  unfold join
  rw [h]

/-- Joining a key without one starts the flight of the next number. -/
theorem join_of_none {key : EntryKey} (h : t.slots.lookup key = none) :
    t.join key = (.leader, t.nextId,
      { t with slots := (key, t.nextId) :: t.slots
               nextId := t.nextId + 1 }) := by
  unfold join
  rw [h]

/-- Joining ends no flight. -/
theorem outcome?_join (key : EntryKey) (id : FlightId) :
    (t.join key).2.2.outcome? id = t.outcome? id := by
  unfold join
  split <;> rfl

/-- The next number has no end. -/
theorem Sound.outcome?_nextId (h : t.Sound) : t.outcome? t.nextId = none := by
  unfold outcome?
  rw [lookup_eq_none]
  intro hin
  obtain ⟨p, hp, hid⟩ := List.mem_map.mp hin
  have hlt := h.ended_lt p hp
  rw [show p.1 = t.nextId from hid] at hlt
  exact Nat.lt_irrefl _ hlt

theorem Sound.join (h : t.Sound) (key : EntryKey) :
    (t.join key).2.2.Sound := by
  cases hk : t.slots.lookup key with
  | some id =>
      rw [join_of_some hk]
      exact h
  | none =>
      have hfresh : t.nextId ∉ t.slots.map (·.2) := by
        intro hin
        obtain ⟨p, hp, hid⟩ := List.mem_map.mp hin
        have hlt := h.slot_lt p hp
        rw [show p.2 = t.nextId from hid] at hlt
        exact Nat.lt_irrefl _ hlt
      rw [join_of_none hk]
      refine ⟨List.nodup_cons.mpr ⟨lookup_eq_none.mp hk, h.keys⟩,
        List.nodup_cons.mpr ⟨hfresh, h.ids⟩, fun p hp => ?_, fun p hp => ?_,
        fun p hp => ?_⟩
      · rcases List.mem_cons.mp hp with rfl | hp'
        · exact Nat.lt_succ_self _
        · exact Nat.lt_succ_of_lt (h.slot_lt p hp')
      · exact Nat.lt_succ_of_lt (h.ended_lt p hp)
      · rcases List.mem_cons.mp hp with rfl | hp'
        · exact h.outcome?_nextId
        · exact h.apart p hp'

-- =============================================================== ending

/-- The ends after one more flight has ended. -/
theorem outcome?_finish (t : FlightTable α) (g : FlightGuard)
    (how : FlightEnd α) (id : FlightId) :
    (t.finish g how).outcome? id
      = if id = g.id then some how else t.outcome? id := by
  unfold outcome? finish
  by_cases h : id = g.id
  · subst h
    rw [if_pos rfl, List.lookup_cons_self]
  · rw [if_neg h, lookup_cons_of_ne h]

/-- The flights in progress after one has ended: all others. -/
theorem Sound.mem_finish (h : t.Sound) {g : FlightGuard}
    (hg : (g.key, g.id) ∈ t.slots) (how : FlightEnd α)
    {k : EntryKey} {id : FlightId} :
    (k, id) ∈ (t.finish g how).slots ↔ (k, id) ∈ t.slots ∧ id ≠ g.id := by
  unfold finish
  rw [List.mem_filter]
  constructor
  · rintro ⟨hin, hne⟩
    refine ⟨hin, ?_⟩
    rintro rfl
    have hk := h.key_unique hin hg
    subst hk
    simp at hne
  · rintro ⟨hin, hne⟩
    exact ⟨hin, by simp [hne]⟩

theorem Sound.finish (h : t.Sound) {g : FlightGuard}
    (hg : (g.key, g.id) ∈ t.slots) (how : FlightEnd α) :
    (t.finish g how).Sound := by
  have hsub : (t.finish g how).slots.Sublist t.slots := List.filter_sublist
  refine ⟨h.keys.sublist (hsub.map _), h.ids.sublist (hsub.map _),
    fun p hp => h.slot_lt p (hsub.mem hp), fun p hp => ?_, fun p hp => ?_⟩
  · rcases List.mem_cons.mp hp with rfl | hp'
    · exact h.slot_lt _ hg
    · exact h.ended_lt p hp'
  · have hp' : (p.1, p.2) ∈ (t.finish g how).slots := hp
    obtain ⟨hin, hne⟩ := (h.mem_finish hg how).mp hp'
    rw [outcome?_finish, if_neg hne]
    exact h.apart p hin

end OnceProxy.FlightTable
