/-
What sums over counters say.

A counter is listed once (`Distinct`), so that counting one more adds one to
each sum that it is a term of, and leaves the other sums alone (`total_bump`).
What happens between two readings is then told by the list of what was counted
in between (`Adds`). Errors of the store are left out of it: a conversation may
end with one wherever it asks, and counts nothing else (`Dialogue.adds_run`).
-/
import Mathlib.Algebra.GroupWithZero.Nat
import Mathlib.Data.List.Nodup
import OnceProxy.Proofs.Association
import OnceProxy.Store.Dialogue

namespace OnceProxy.Metrics

open Association

variable {m n : Metrics} {c : Counter} {cs : List Counter} {pass : Counter → Bool}

-- ================================================================== sums

/-- No counter is listed twice. -/
def Distinct (m : Metrics) : Prop := (m.counts.map (·.1)).Nodup

/-- The sum of the listed counts whose counters pass. -/
def sumOf (pass : Counter → Bool) (l : List (Counter × Nat)) : Nat :=
  ((l.filter fun p => pass p.1).map (·.2)).sum

/-- What was counted in all under the counters that pass. -/
def total (m : Metrics) (pass : Counter → Bool) : Nat := sumOf pass m.counts

theorem sumOf_cons (p : Counter × Nat) (l : List (Counter × Nat)) :
    sumOf pass (p :: l) = (if pass p.1 then p.2 else 0) + sumOf pass l := by
  unfold sumOf
  by_cases hp : pass p.1 = true
  · simp [hp]
  · simp [hp]

theorem sumOf_append (l l' : List (Counter × Nat)) :
    sumOf pass (l ++ l') = sumOf pass l + sumOf pass l' := by
  unfold sumOf
  rw [List.filter_append, List.map_append, List.sum_append]

/-- One more under a counter. -/
def raise (c : Counter) (p : Counter × Nat) : Counter × Nat :=
  if p.1 = c then (p.1, p.2 + 1) else p

theorem map_fst_raise (c : Counter) (l : List (Counter × Nat)) :
    (l.map (raise c)).map (·.1) = l.map (·.1) := by
  rw [List.map_map]
  refine List.map_congr_left fun p _ => ?_
  simp only [Function.comp_apply, raise]
  split <;> rfl

theorem map_raise_of_not_mem {l : List (Counter × Nat)} (h : c ∉ l.map (·.1)) :
    l.map (raise c) = l := by
  have hsame : ∀ p ∈ l, raise c p = id p := by
    intro p hp
    have hne : p.1 ≠ c := by
      rintro rfl
      exact h (List.mem_map_of_mem hp)
    exact if_neg hne
  rw [List.map_congr_left hsame, List.map_id]

theorem sumOf_raise {l : List (Counter × Nat)} (hl : (l.map (·.1)).Nodup)
    (h : c ∈ l.map (·.1)) :
    sumOf pass (l.map (raise c)) = sumOf pass l + if pass c then 1 else 0 := by
  induction l with
  | nil => cases h
  | cons p l ih =>
      obtain ⟨hp, hl'⟩ := List.nodup_cons.mp hl
      rw [List.map_cons, sumOf_cons, sumOf_cons]
      by_cases hpc : p.1 = c
      · subst hpc
        rw [map_raise_of_not_mem hp, show raise p.1 p = (p.1, p.2 + 1) from if_pos rfl]
        dsimp only
        split <;> omega
      · have hin : c ∈ l.map (·.1) :=
          (List.mem_cons.mp h).resolve_left (fun hc => hpc hc.symm)
        rw [ih hl' hin, show raise c p = p from if_neg hpc]
        omega

/-- A counter that is listed is raised, another one is added. -/
theorem counts_bump (m : Metrics) (c : Counter) :
    (c ∈ m.counts.map (·.1) ∧ (m.bump c).counts = m.counts.map (raise c))
      ∨ (c ∉ m.counts.map (·.1) ∧ (m.bump c).counts = m.counts ++ [(c, 1)]) := by
  unfold bump
  cases hfind : m.counts.lookup c with
  | none =>
      refine .inr ⟨lookup_eq_none.mp hfind, ?_⟩
      simp
  | some n =>
      refine .inl ⟨List.mem_map_of_mem (mem_of_lookup hfind), ?_⟩
      simp only [Option.isSome_some, if_true]
      rfl

theorem Distinct.bump (h : m.Distinct) (c : Counter) : (m.bump c).Distinct := by
  unfold Distinct at h ⊢
  rcases counts_bump m c with ⟨-, hcounts⟩ | ⟨hnew, hcounts⟩
  · rw [hcounts, map_fst_raise]
    exact h
  · rw [hcounts, List.map_append, List.nodup_append]
    refine ⟨h, List.nodup_singleton _, ?_⟩
    intro d hd b hb
    rw [List.map_singleton, List.mem_singleton] at hb
    rintro rfl
    rw [hb] at hd
    exact hnew hd

/-- Counting one more adds one to the sums that it is a term of. -/
theorem total_bump (h : m.Distinct) (c : Counter) (pass : Counter → Bool) :
    (m.bump c).total pass = m.total pass + if pass c then 1 else 0 := by
  unfold total
  rcases counts_bump m c with ⟨hin, hcounts⟩ | ⟨-, hcounts⟩
  · rw [hcounts, sumOf_raise h hin]
  · rw [hcounts, sumOf_append, sumOf_cons]
    rfl

theorem sumOf_eq_zero {l : List (Counter × Nat)} (h : c ∉ l.map (·.1)) :
    sumOf (· = c) l = 0 := by
  have hnone : l.filter (fun p => p.1 = c) = [] := by
    rw [List.filter_eq_nil_iff]
    intro p hp hpc
    rw [decide_eq_true_eq] at hpc
    rw [← hpc] at h
    exact h (List.mem_map_of_mem hp)
  unfold sumOf
  rw [hnone]
  rfl

theorem sumOf_eq_lookup {l : List (Counter × Nat)} (hl : (l.map (·.1)).Nodup) :
    sumOf (· = c) l = (l.lookup c).getD 0 := by
  induction l with
  | nil => rfl
  | cons p l ih =>
      obtain ⟨hp, hl'⟩ := List.nodup_cons.mp hl
      rw [sumOf_cons]
      by_cases hpc : p.1 = c
      · subst hpc
        rw [sumOf_eq_zero hp, show (p :: l).lookup p.1 = some p.2 from List.lookup_cons_self]
        simp
      · rw [ih hl', lookup_cons_of_ne (fun hc => hpc hc.symm)]
        simp [hpc]

/-- The sum of one term is its count. -/
theorem total_eq_count (h : m.Distinct) (c : Counter) : m.total (· = c) = m.count c :=
  sumOf_eq_lookup h

-- ============================================================== readings

/-- Between two readings these were counted, and errors of the store. -/
def Adds (m : Metrics) (cs : List Counter) (n : Metrics) : Prop :=
  m.Distinct → n.Distinct ∧ ∀ pass : Counter → Bool,
    (∀ operation, pass (.storeErrors operation) = false) →
    n.total pass = m.total pass + cs.countP pass

theorem Adds.refl (m : Metrics) : m.Adds [] m :=
  fun h => ⟨h, fun _ _ => rfl⟩

theorem Adds.bump (h : m.Adds cs n) (c : Counter) : m.Adds (cs ++ [c]) (n.bump c) := by
  intro hm
  obtain ⟨hn, htotal⟩ := h hm
  refine ⟨hn.bump c, fun pass hpass => ?_⟩
  rw [total_bump hn, htotal pass hpass, List.countP_append, List.countP_singleton]
  omega

theorem Adds.bumpError (h : m.Adds cs n) (operation : String) :
    m.Adds cs (n.bump (.storeErrors operation)) := by
  intro hm
  obtain ⟨hn, htotal⟩ := h hm
  refine ⟨hn.bump _, fun pass hpass => ?_⟩
  rw [total_bump hn, htotal pass hpass, if_neg (by simp [hpass])]
  rfl

/-- The size of the store is no count. -/
theorem Adds.setEntries (h : m.Adds cs n) (size : Nat) : m.Adds cs (n.setEntries size) := h

end OnceProxy.Metrics

namespace OnceProxy.Store.Dialogue

variable {σ α : Type} {m n : Metrics} {cs : List Counter}

/-- A conversation with the store counts nothing else. -/
theorem adds_run (B : Backend σ) (now : UInt64) (d : Dialogue α) (st : σ) (h : m.Adds cs n) :
    m.Adds cs (d.run B now (st, n)).2.2 := by
  induction d generalizing st n with
  | done a | fail e => exact h
  | clock next ih => exact ih now st h
  | ask q next ih =>
      simp only [run]
      cases B.answer q now st with
      | mk answer st' =>
          cases answer with
          | ok a =>
              refine ih a st' ?_
              split
              · exact h.setEntries _
              · exact h
          | error e =>
              refine Metrics.Adds.bumpError ?_ _
              split
              · exact h.setEntries _
              · exact h

end OnceProxy.Store.Dialogue
