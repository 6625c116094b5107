/-
Header fields: what is written into an entry can be read out of it.

A name is kept in lower case, so reading it once more changes nothing; a
value is kept octet for octet. Grouping the fields of a map moves fields of
different names past each other and nothing else: each name keeps its
values in their order, and no field is lost or doubled.
-/
import OnceProxy.Http.Field
import OnceProxy.Proofs.Octets

namespace OnceProxy.Http

-- ================================================================= names

namespace FieldName

/-- A character that is not upper case stays as it is. -/
theorem toLower_of_isLowerTokenChar {c : Char}
    (h : isLowerTokenChar c = true) : c.toLower = c := by
  unfold isLowerTokenChar at h
  rw [Bool.and_eq_true, Bool.not_eq_true'] at h
  have hupper : ¬(c.val ≥ 'A'.val ∧ c.val ≤ 'Z'.val) :=
    of_decide_eq_false h.2
  unfold Char.toLower
  rw [dif_neg hupper]

theorem isLowerTokenChar_of_mem {n : FieldName} {c : Char}
    (hc : c ∈ n.text.toList) : isLowerTokenChar c = true := by
  have hvalid := n.valid
  unfold isFieldName at hvalid
  simp only [Bool.and_eq_true] at hvalid
  exact List.all_eq_true.mp hvalid.1.2 c hc

/-- A name is read as itself. -/
theorem parse?_text (n : FieldName) : parse? n.text = some n := by
  have hlower : n.text.toList.map Char.toLower = n.text.toList :=
    (List.map_congr_left fun c hc =>
      toLower_of_isLowerTokenChar (isLowerTokenChar_of_mem hc)).trans
        (List.map_id' _)
  unfold parse? ofChars?
  simp only [hlower, String.ofList_toList, n.valid, dite_true]

/-- The octets of a name are few. -/
theorem length_ofText_lt (n : FieldName) :
    (Octets.ofText n.text).length < 2 ^ 64 := by
  have hle := Octets.length_ofText_le n.text
  have hvalid := n.valid
  unfold isFieldName at hvalid
  simp only [Bool.and_eq_true, decide_eq_true_eq] at hvalid
  have hlt := hvalid.2
  omega

end FieldName

/-- A value is read as itself. -/
theorem FieldValue.ofOctets?_octets (v : FieldValue) :
    ofOctets? v.octets = some v := by
  unfold ofOctets?
  rw [dif_pos v.valid]

-- =============================================================== grouping

namespace Headers

/-- Adds a name to those seen, unless it is there. -/
def addName (seen : List FieldName) (f : Field) : List FieldName :=
  if seen.contains f.1 then seen else seen ++ [f.1]

theorem nodup_addName {seen : List FieldName} (h : seen.Nodup) (f : Field) :
    (addName seen f).Nodup := by
  unfold addName
  by_cases hf : f.1 ∈ seen
  · rw [if_pos (by simpa using hf)]
    exact h
  · rw [if_neg (by simpa using hf), List.nodup_append]
    refine ⟨h, by simp, fun a ha b hb => ?_⟩
    rw [List.mem_singleton.mp hb]
    rintro rfl
    exact hf ha

theorem mem_addName {seen : List FieldName} {f : Field} {n : FieldName} :
    n ∈ addName seen f ↔ n ∈ seen ∨ n = f.1 := by
  unfold addName
  by_cases hf : f.1 ∈ seen
  · rw [if_pos (by simpa using hf)]
    refine ⟨.inl, ?_⟩
    rintro (hn | rfl)
    · exact hn
    · exact hf
  · rw [if_neg (by simpa using hf), List.mem_append, List.mem_singleton]

/-- The names after some fields: those seen before, and the fields' own. -/
theorem foldl_addName (fields : List Field) {seen : List FieldName}
    (h : seen.Nodup) :
    (fields.foldl addName seen).Nodup
      ∧ ∀ n, n ∈ fields.foldl addName seen
        ↔ n ∈ seen ∨ n ∈ fields.map (·.1) := by
  induction fields generalizing seen with
  | nil => exact ⟨h, fun n => by simp⟩
  | cons f fields ih =>
      obtain ⟨hnodup, hmem⟩ := ih (nodup_addName h f)
      refine ⟨hnodup, fun n => ?_⟩
      rw [List.foldl_cons, hmem, mem_addName, List.map_cons, List.mem_cons,
        or_assoc]

/-- No name is listed twice. -/
theorem nodup_names (h : Headers) : h.names.Nodup :=
  (foldl_addName h.fields List.nodup_nil).1

/-- The names listed are those of the fields. -/
theorem mem_names {h : Headers} {n : FieldName} :
    n ∈ h.names ↔ n ∈ h.fields.map (·.1) :=
  ((foldl_addName h.fields List.nodup_nil).2 n).trans (by simp)

/-- The fields of one name in groups of fields: its own group. -/
theorem filter_flatMap_groups (fields : List Field) {names : List FieldName}
    (h : names.Nodup) (n : FieldName) :
    (names.flatMap fun m => fields.filter fun f => decide (f.1 = m)).filter
        (fun f => decide (f.1 = n))
      = if n ∈ names then fields.filter fun f => decide (f.1 = n) else [] := by
  induction names with
  | nil => rfl
  | cons m names ih =>
      obtain ⟨hm, hrest⟩ := List.nodup_cons.mp h
      rw [List.flatMap_cons, List.filter_append, ih hrest, List.filter_filter]
      by_cases hn : n = m
      · subst hn
        rw [if_neg hm, if_pos (List.mem_cons_self ..), List.append_nil]
        simp
      · have hnone : (fields.filter fun f =>
            decide (f.1 = n) && decide (f.1 = m)) = [] := by
          rw [List.filter_eq_nil_iff]
          intro f _ hboth
          rw [Bool.and_eq_true, decide_eq_true_eq, decide_eq_true_eq] at hboth
          exact hn (hboth.1.symm.trans hboth.2)
        rw [hnone, List.nil_append]
        simp [hn]

/-- Grouping keeps the fields of each name, in their order. -/
theorem filter_grouped (h : Headers) (n : FieldName) :
    h.grouped.filter (fun f => decide (f.1 = n))
      = h.fields.filter fun f => decide (f.1 = n) := by
  unfold grouped
  rw [filter_flatMap_groups h.fields h.nodup_names]
  by_cases hn : n ∈ h.names
  · rw [if_pos hn]
  · rw [if_neg hn, eq_comm, List.filter_eq_nil_iff]
    intro f hf heq
    rw [decide_eq_true_eq] at heq
    subst heq
    exact hn (mem_names.mpr (List.mem_map_of_mem hf))

/-- Grouping keeps the values of each name, in their order. -/
theorem values_grouped (h : Headers) (n : FieldName) :
    (⟨h.grouped⟩ : Headers).values n = h.values n := by
  unfold values
  rw [filter_grouped]

/-- Fields in groups are the fields, if every name has its group. -/
theorem perm_groups {names : List FieldName} (h : names.Nodup)
    (fields : List Field) (hall : ∀ f ∈ fields, f.1 ∈ names) :
    (names.flatMap fun m => fields.filter fun f => decide (f.1 = m)).Perm
      fields := by
  induction names generalizing fields with
  | nil =>
      cases fields with
      | nil => exact .refl _
      | cons f fields =>
          exact absurd (hall f (List.mem_cons_self ..)) List.not_mem_nil
  | cons m names ih =>
      obtain ⟨hm, hrest⟩ := List.nodup_cons.mp h
      -- the groups of the other names do not see the fields of this one
      have hother : (names.flatMap fun o =>
          (fields.filter fun f => !decide (f.1 = m)).filter fun f =>
            decide (f.1 = o))
          = names.flatMap fun o =>
            fields.filter fun f => decide (f.1 = o) := by
        rw [List.flatMap_def, List.flatMap_def]
        refine congrArg List.flatten (List.map_congr_left fun o ho => ?_)
        rw [List.filter_filter]
        refine List.filter_congr fun f _ => ?_
        by_cases hf : f.1 = o
        · have hne : f.1 ≠ m := by
            rintro hfm
            exact hm (hfm ▸ hf ▸ ho)
          simp [hf, hf ▸ hne]
        · simp [hf]
      rw [List.flatMap_cons, ← hother]
      refine .trans (.append_left _ (ih hrest _ fun f hf => ?_))
        (List.filter_append_perm (fun f => decide (f.1 = m)) fields)
      obtain ⟨hin, hne⟩ := List.mem_filter.mp hf
      rcases List.mem_cons.mp (hall f hin) with heq | hmem
      · simp [heq] at hne
      · exact hmem

/-- Grouping moves fields and does nothing else. -/
theorem grouped_perm (h : Headers) : h.grouped.Perm h.fields :=
  perm_groups h.nodup_names h.fields fun _ hf =>
    mem_names.mpr (List.mem_map_of_mem hf)

end Headers

end OnceProxy.Http
