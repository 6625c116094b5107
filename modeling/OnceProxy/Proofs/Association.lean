/-
Association lists in which no key stands twice.

The records of a store, the slots of a flight table and the ends of its
flights are such lists, looked into by `List.lookup`. With distinct keys a
look-up and a membership say the same, and a filter commutes with the
look-up; both fail where a key stands twice, which is why the hypothesis
goes with each lemma.
-/
namespace OnceProxy.Association

variable {κ α : Type}

/-- A filter keeps keys apart. -/
theorem nodup_filter {l : List (κ × α)} (hl : (l.map (·.1)).Nodup)
    (keep : κ × α → Bool) : ((l.filter keep).map (·.1)).Nodup :=
  List.Nodup.sublist (List.filter_sublist.map _) hl

variable [DecidableEq κ]

/-- A look-up passes over other keys. -/
theorem lookup_cons_of_ne {k q : κ} (h : k ≠ q) (v : α) (l : List (κ × α)) :
    ((q, v) :: l).lookup k = l.lookup k := by
  rw [List.lookup_cons, beq_false_of_ne h]

/-- What a look-up finds stands in the list. -/
theorem mem_of_lookup {l : List (κ × α)} {k : κ} {v : α}
    (h : l.lookup k = some v) : (k, v) ∈ l := by
  obtain ⟨front, behind, rfl, -⟩ := List.lookup_eq_some_iff.mp h
  exact List.mem_append_right _ (List.mem_cons_self ..)

/-- What stands in the list is found, if no key stands twice. -/
theorem lookup_of_mem {l : List (κ × α)} (hl : (l.map (·.1)).Nodup)
    {k : κ} {v : α} (h : (k, v) ∈ l) : l.lookup k = some v := by
  induction l with
  | nil => cases h
  | cons p l ih =>
      obtain ⟨hp, hl'⟩ := List.nodup_cons.mp hl
      rcases List.mem_cons.mp h with rfl | h'
      · exact List.lookup_cons_self
      · have hne : k ≠ p.1 := by
          rintro rfl
          exact hp (List.mem_map.mpr ⟨_, h', rfl⟩)
        rw [← ih hl' h']
        exact lookup_cons_of_ne hne p.2 l

/-- A key is found exactly if it stands in the list. -/
theorem lookup_eq_none {l : List (κ × α)} {k : κ} :
    l.lookup k = none ↔ k ∉ l.map (·.1) := by
  rw [List.lookup_eq_none_iff]
  constructor
  · intro h hk
    obtain ⟨p, hp, rfl⟩ := List.mem_map.mp hk
    simpa using h p hp
  · intro h p hp
    have hne : k ≠ p.1 := by
      rintro rfl
      exact h (List.mem_map_of_mem hp)
    simpa using hne

/-- Looking into a filtered list filters what is found. -/
theorem lookup_filter {l : List (κ × α)} (hl : (l.map (·.1)).Nodup)
    (keep : κ × α → Bool) (k : κ) :
    (l.filter keep).lookup k = (l.lookup k).filter fun v => keep (k, v) := by
  cases hk : l.lookup k with
  | none =>
      rw [Option.filter_none, lookup_eq_none]
      intro hin
      obtain ⟨p, hp, rfl⟩ := List.mem_map.mp hin
      exact lookup_eq_none.mp hk
        (List.mem_map_of_mem (List.mem_filter.mp hp).1)
  | some v =>
      have hmem := mem_of_lookup hk
      cases hkeep : keep (k, v) with
      | true =>
          rw [Option.filter_some_pos (p := fun v => keep (k, v)) hkeep]
          exact lookup_of_mem (nodup_filter hl keep)
            (List.mem_filter.mpr ⟨hmem, hkeep⟩)
      | false =>
          rw [Option.filter_some_neg (p := fun v => keep (k, v)) hkeep,
            lookup_eq_none]
          intro hin
          obtain ⟨⟨q, w⟩, hp, rfl⟩ := List.mem_map.mp hin
          obtain ⟨hpl, hpk⟩ := List.mem_filter.mp hp
          have hw := lookup_of_mem hl hpl
          rw [hk] at hw
          cases hw
          rw [hkeep] at hpk
          cases hpk

/-- The order of the list does not matter to a look-up. -/
theorem lookup_perm {l l' : List (κ × α)} (hl : (l.map (·.1)).Nodup)
    (h : l.Perm l') (k : κ) : l.lookup k = l'.lookup k := by
  have hl' : (l'.map (·.1)).Nodup := (h.map _).nodup_iff.mp hl
  refine Option.ext fun v => ⟨fun hv => ?_, fun hv => ?_⟩
  · exact lookup_of_mem hl' (h.mem_iff.mp (mem_of_lookup hv))
  · exact lookup_of_mem hl (h.mem_iff.mpr (mem_of_lookup hv))

end OnceProxy.Association
