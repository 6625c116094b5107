/-
How many flights there have been.

Flights are numbered as they begin, so the next number says how many there
have been. Each of them is in progress or over: its number stands in a slot,
or it has an end (`Complete`), and in a sound table it is never both. So those
that are over and those in progress add up to the next number
(`endedCount_add_inFlight`).
-/
import OnceProxy.Proofs.Flight

namespace OnceProxy.FlightTable

variable {α : Type} {t : FlightTable α}

/-- How many flights are over. -/
def endedCount (t : FlightTable α) : Nat :=
  (List.range t.nextId).countP fun id => (t.outcome? id).isSome

/-- A flight that has no end is in progress. -/
def Complete (t : FlightTable α) : Prop :=
  ∀ id < t.nextId, t.outcome? id = none → ∃ key, (key, id) ∈ t.slots

theorem complete_empty : (empty : FlightTable α).Complete :=
  fun _ h _ => absurd h (Nat.not_lt_zero _)

theorem Complete.join (h : t.Complete) (key : EntryKey) : (t.join key).2.2.Complete := by
  cases hk : t.slots.lookup key with
  | some id =>
      rw [join_of_some hk]
      exact h
  | none =>
      rw [join_of_none hk]
      intro id hid hopen
      by_cases hnew : id = t.nextId
      · subst hnew
        exact ⟨key, List.mem_cons_self ..⟩
      · have hold : id < t.nextId := Nat.lt_of_le_of_ne (Nat.lt_succ_iff.mp hid) hnew
        obtain ⟨other, hin⟩ := h id hold hopen
        exact ⟨other, List.mem_cons_of_mem _ hin⟩

theorem Complete.finish (h : t.Complete) (hs : t.Sound) {g : FlightGuard}
    (hg : (g.key, g.id) ∈ t.slots) (how : FlightEnd α) : (t.finish g how).Complete := by
  intro id hid hopen
  rw [outcome?_finish] at hopen
  split at hopen
  · cases hopen
  · next hne =>
    obtain ⟨key, hin⟩ := h id hid hopen
    exact ⟨key, (hs.mem_finish hg how).mpr ⟨hin, hne⟩⟩

/-- One number is given out to whoever leads, and none to who follows. -/
theorem nextId_join (t : FlightTable α) (key : EntryKey) :
    (t.join key).2.2.nextId = t.nextId + if (t.join key).1 = .leader then 1 else 0 := by
  unfold join
  split <;> rfl

/-- The flights in progress are those that have no end. -/
theorem slots_perm (hs : t.Sound) (hc : t.Complete) :
    (t.slots.map (·.2)).Perm
      ((List.range t.nextId).filter fun id => !(t.outcome? id).isSome) := by
  rw [List.perm_ext_iff_of_nodup hs.ids (List.nodup_range.filter _)]
  intro id
  rw [List.mem_filter, List.mem_range, Bool.not_eq_true', Option.isSome_eq_false_iff,
    Option.isNone_iff_eq_none, List.mem_map]
  constructor
  · rintro ⟨p, hp, rfl⟩
    exact ⟨hs.slot_lt p hp, hs.apart p hp⟩
  · intro ⟨hid, hopen⟩
    obtain ⟨key, hin⟩ := hc id hid hopen
    exact ⟨_, hin, rfl⟩

/-- Every flight that has begun is over or in progress. -/
theorem endedCount_add_inFlight (hs : t.Sound) (hc : t.Complete) :
    t.endedCount + t.inFlight = t.nextId := by
  have hopen : t.inFlight
      = (List.range t.nextId).countP fun id => ¬(t.outcome? id).isSome = true := by
    have hlength := (slots_perm hs hc).length_eq
    rw [List.length_map, ← List.countP_eq_length_filter] at hlength
    refine hlength.trans (List.countP_congr fun id _ => ?_)
    simp
  have hall := List.length_eq_countP_add_countP (l := List.range t.nextId)
    fun id => (t.outcome? id).isSome
  rw [List.length_range] at hall
  rw [hopen]
  exact hall.symm

end OnceProxy.FlightTable
