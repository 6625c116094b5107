/-
Pieces of a text, and what is between blanks.

Cutting at a separator is the list library's cutting (`pieces_eq_splitOn`).
Trimming takes off what is blank at both ends and stops at the first
character that is not (`trimChars_append`).
-/
import OnceProxy.Text.Pieces

namespace OnceProxy.Text

-- ================================================================ pieces

theorem pieces_ne_nil (separator : Char) (cs : List Char) :
    pieces separator cs ≠ [] := by
  induction cs with
  | nil => exact List.cons_ne_nil _ _
  | cons c cs ih =>
      unfold pieces
      split
      · exact List.cons_ne_nil _ _
      · split
        · exact List.cons_ne_nil _ _
        · exact List.cons_ne_nil _ _

theorem pieces_eq_splitOn (separator : Char) (cs : List Char) :
    pieces separator cs = cs.splitOn separator := by
  induction cs with
  | nil => rfl
  | cons c cs ih =>
      rw [List.splitOn_cons_eq_if_modifyHead, ← ih]
      conv => lhs; unfold pieces
      by_cases hc : c = separator
      · simp [hc]
      · rw [if_neg hc, if_neg (by simpa using hc)]
        -- there is always a first piece for the character to go to
        cases hpieces : pieces separator cs with
        | nil => exact absurd hpieces (pieces_ne_nil _ _)
        | cons piece rest => rfl

-- ================================================================== trim

variable {pass : Char → Bool}

theorem dropWhile_append_stop {front rest : List Char}
    (hfront : ∀ c ∈ front, pass c = true)
    (hrest : ∀ c ∈ rest.head?, pass c = false) :
    (front ++ rest).dropWhile pass = rest := by
  rw [List.dropWhile_append_of_pos hfront]
  cases rest with
  | nil => rfl
  | cons c rest =>
      have hc := hrest c rfl
      rw [List.dropWhile_cons_of_neg (by simp [hc])]

/-- What is not blank at its ends is what trimming leaves of it. -/
theorem trimChars_append {left middle right : List Char}
    (hleft : ∀ c ∈ left, pass c = true) (hright : ∀ c ∈ right, pass c = true)
    (hmiddle : ∀ c ∈ middle, pass c = false) (hne : middle ≠ []) :
    trimChars pass (left ++ (middle ++ right)) = middle := by
  have hhead : ∀ c ∈ (middle ++ right).head?, pass c = false := by
    obtain ⟨m, rest, rfl⟩ := List.exists_cons_of_ne_nil hne
    intro c hc
    exact hmiddle c (List.mem_of_mem_head? hc)
  unfold trimChars
  rw [dropWhile_append_stop hleft hhead, List.reverse_append,
    dropWhile_append_stop, List.reverse_reverse]
  · intro c hc
    exact hright c (List.mem_reverse.mp hc)
  · intro c hc
    exact hmiddle c (List.mem_reverse.mp (List.mem_of_mem_head? hc))

/-- Trimming leaves what is between blanks. -/
theorem exists_of_trimChars (pass : Char → Bool) (cs : List Char) :
    ∃ left right, cs = left ++ (trimChars pass cs ++ right)
      ∧ ∀ c ∈ left ++ right, pass c = true := by
  refine ⟨cs.takeWhile pass,
    ((cs.dropWhile pass).reverse.takeWhile pass).reverse, ?_, ?_⟩
  · unfold trimChars
    rw [← List.reverse_append, List.takeWhile_append_dropWhile,
      List.reverse_reverse, List.takeWhile_append_dropWhile]
  · intro c hc
    rcases List.mem_append.mp hc with hc | hc
    · exact List.all_eq_true.mp List.all_takeWhile c hc
    · exact List.all_eq_true.mp List.all_takeWhile c (List.mem_reverse.mp hc)

end OnceProxy.Text
