/-
Which fields cross the proxy.

The names that a message's `connection` values list are read out of the map
that is about to be cleaned; they are the names that some token between
commas spells, whatever its case and the blanks around it (`Listed`). What
is dropped is dropped by name, so a name keeps all its values, in their
order, or loses them all (`Keeps`). A map that has been cleaned has no
`connection` field left that could list anything, so cleaning it once more
does nothing.
-/
import OnceProxy.Proofs.Http.Fields
import OnceProxy.Proofs.Http.Transit
import OnceProxy.Proofs.Text.Pieces

namespace OnceProxy.Http

-- ================================================================= names

/-- The token is the name, in any case. -/
def FieldName.SpelledBy (n : FieldName) (token : List Char) : Prop :=
  (∀ c ∈ token, isTokenChar c = true)
    ∧ token.map Char.toLower = n.text.toList

/-- A character that is a token's in lower case is one as it stands. -/
theorem isTokenChar_of_toLower {c : Char}
    (h : isTokenChar c.toLower = true) : isTokenChar c = true := by
  by_cases hupper : c.val ≥ 'A'.val ∧ c.val ≤ 'Z'.val
  · have hisUpper : c.isUpper = true := decide_eq_true hupper
    have halphanum : c.isAlphanum = true := by
      show (c.isUpper || c.isLower || c.isDigit) = true
      rw [hisUpper]
      rfl
    unfold isTokenChar
    rw [halphanum]
    rfl
  · unfold Char.toLower at h
    rw [dif_neg hupper] at h
    exact h

namespace FieldName

variable {n : FieldName} {token : List Char}

theorem ofChars?_eq_some_iff : ofChars? token = some n ↔ n.SpelledBy token := by
  unfold ofChars?
  dsimp only
  constructor
  · intro h
    split at h
    · next hvalid =>
      obtain rfl := Option.some.inj h
      refine ⟨?_, by rw [String.toList_ofList]⟩
      intro c hc
      have hlower := isLowerTokenChar_of_mem (n := ⟨_, hvalid⟩) (c := c.toLower)
        (by rw [String.toList_ofList]; exact List.mem_map_of_mem hc)
      unfold isLowerTokenChar at hlower
      rw [Bool.and_eq_true] at hlower
      exact isTokenChar_of_toLower hlower.1
    · cases h
  · intro h
    simp only [h.2, String.ofList_toList, n.valid, dite_true]

/-- No token is empty. -/
theorem SpelledBy.ne_nil (h : n.SpelledBy token) : token ≠ [] := by
  rintro rfl
  have hvalid := n.valid
  unfold isFieldName at hvalid
  rw [← h.2] at hvalid
  simp at hvalid

theorem SpelledBy.not_blank (h : n.SpelledBy token) {c : Char}
    (hc : c ∈ token) : isBlank c = false := by
  have htoken := h.1 c hc
  have hspace : isTokenChar ' ' = false := by decide +kernel
  have htab : isTokenChar '\t' = false := by decide +kernel
  unfold isBlank
  rw [Bool.or_eq_false_iff, decide_eq_false_iff_not, decide_eq_false_iff_not]
  constructor
  · rintro rfl
    rw [hspace] at htoken
    cases htoken
  · rintro rfl
    rw [htab] at htoken
    cases htoken

end FieldName

theorem isBlank_iff {c : Char} : isBlank c = true ↔ c = ' ' ∨ c = '\t' := by
  simp [isBlank]

theorem isPlainOctet_iff {o : UInt8} :
    isPlainOctet o = true ↔ o = 9 ∨ (0x20 ≤ o ∧ o ≤ 0x7e) := by
  have hbound : o < 127 ↔ o ≤ 0x7e := by
    rw [UInt8.lt_iff_toNat_lt, UInt8.le_iff_toNat_le]
    exact Nat.lt_succ_iff
  simp [isPlainOctet, hbound]

namespace Headers

variable {h : Headers} {n : FieldName} {pass : FieldName → Bool}

-- ================================================================ listed

/-- A `connection` value of tabs and visible characters lists the name: a
token between two of its commas spells it, with blanks at most around. -/
def Listed (h : Headers) (n : FieldName) : Prop :=
  ∃ v ∈ h.values .connection,
    (∀ o ∈ v.octets, o = 9 ∨ (0x20 ≤ o ∧ o ≤ 0x7e))
    ∧ ∃ left token right,
      left ++ (token ++ right) ∈ (Octets.toLatin1 v.octets).toList.splitOn ','
      ∧ (∀ c ∈ left ++ right, c = ' ' ∨ c = '\t') ∧ n.SpelledBy token

theorem text?_eq_some_iff {v : FieldValue} {s : String} :
    v.text? = some s ↔ (∀ o ∈ v.octets, o = 9 ∨ (0x20 ≤ o ∧ o ≤ 0x7e))
      ∧ Octets.toLatin1 v.octets = s := by
  unfold FieldValue.text?
  simp only [Option.ite_none_right_eq_some, List.all_eq_true, isPlainOctet_iff,
    Option.some.injEq]

theorem mem_connectionListed : n ∈ h.connectionListed ↔ h.Listed n := by
  unfold connectionListed
  rw [List.mem_flatMap]
  constructor
  · intro ⟨v, hv, hmem⟩
    split at hmem
    · cases hmem
    · next s hs =>
      obtain ⟨hplain, rfl⟩ := text?_eq_some_iff.mp hs
      obtain ⟨piece, hpiece, hread⟩ := List.mem_filterMap.mp hmem
      rw [Text.pieces_eq_splitOn] at hpiece
      obtain ⟨left, right, hsplit, hblank⟩ :=
        Text.exists_of_trimChars isBlank piece
      rw [hsplit] at hpiece
      exact ⟨v, hv, hplain, left, _, right, hpiece,
        fun c hc => isBlank_iff.mp (hblank c hc),
        FieldName.ofChars?_eq_some_iff.mp hread⟩
  · intro ⟨v, hv, hplain, left, token, right, hpiece, hblank, hspelled⟩
    refine ⟨v, hv, ?_⟩
    have hs : v.text? = some (Octets.toLatin1 v.octets) :=
      text?_eq_some_iff.mpr ⟨hplain, rfl⟩
    have htrim : Text.trimChars isBlank (left ++ (token ++ right)) = token := by
      apply Text.trimChars_append
      · intro c hc
        exact isBlank_iff.mpr (hblank c (List.mem_append_left _ hc))
      · intro c hc
        exact isBlank_iff.mpr (hblank c (List.mem_append_right _ hc))
      · intro c hc
        exact hspelled.not_blank hc
      · exact hspelled.ne_nil
    rw [hs]
    refine List.mem_filterMap.mpr ⟨left ++ (token ++ right), ?_, ?_⟩
    · rw [Text.pieces_eq_splitOn]
      exact hpiece
    · rw [htrim]
      exact FieldName.ofChars?_eq_some_iff.mpr hspelled

theorem isConnectionScoped_iff :
    h.isConnectionScoped n = true ↔ n ∈ FieldName.hopByHop ∨ h.Listed n := by
  unfold isConnectionScoped
  rw [Bool.or_eq_true, List.contains_iff_mem, List.contains_iff_mem,
    mem_connectionListed]

-- =============================================================== filters

/-- Of each name that passes `kept` has all values of `h`, in their order,
and of the others none. -/
def Keeps (kept h : Headers) (passes : FieldName → Prop) : Prop :=
  ∀ n, (passes n → kept.values n = h.values n) ∧ (¬ passes n → kept.values n = [])

theorem keeps_keep {passes : FieldName → Prop}
    (hpass : ∀ n, pass n = true ↔ passes n) : (h.keep pass).Keeps h passes := by
  intro n
  rw [values_keep]
  constructor
  · intro hn
    rw [if_pos ((hpass n).mpr hn)]
  · intro hn
    rw [if_neg (mt (hpass n).mp hn)]

theorem keep_eq_self (hall : ∀ f ∈ h.fields, pass f.1 = true) :
    h.keep pass = h := by
  unfold keep
  rw [List.filter_eq_self.mpr hall]

theorem pass_of_mem_keep {f : Field} (hf : f ∈ (h.keep pass).fields) :
    f ∈ h.fields ∧ pass f.1 = true :=
  List.mem_filter.mp hf

/-- Without fields of the hop-by-hop names there is no `connection` field,
and nothing is listed. -/
theorem stripHopByHop_eq_self
    (hnone : ∀ f ∈ h.fields, f.1 ∉ FieldName.hopByHop) : h.stripHopByHop = h := by
  have hconnection : h.values .connection = [] := by
    unfold values
    rw [List.map_eq_nil_iff, List.filter_eq_nil_iff]
    intro f hf hname
    rw [decide_eq_true_eq] at hname
    apply hnone f hf
    rw [hname]
    decide
  apply keep_eq_self
  intro f hf
  rw [Bool.not_eq_true', ← Bool.not_eq_true, isConnectionScoped_iff]
  rintro (hhop | ⟨v, hv, -⟩)
  · exact hnone f hf hhop
  · rw [hconnection] at hv
    cases hv

/-- What is left of a map that has been cleaned is clean. -/
theorem stripHopByHop_of_subset {kept : Headers}
    (hsub : ∀ f ∈ kept.fields, f ∈ h.stripHopByHop.fields) :
    kept.stripHopByHop = kept := by
  apply stripHopByHop_eq_self
  intro f hf hhop
  have hscoped := (pass_of_mem_keep (hsub f hf)).2
  rw [Bool.not_eq_true', ← Bool.not_eq_true, isConnectionScoped_iff] at hscoped
  exact hscoped (.inl hhop)

/-- Whatever else is dropped after it, a second cleaning does nothing. -/
theorem clean_clean (h : Headers) (pass : FieldName → Bool) :
    (h.stripHopByHop.keep pass).stripHopByHop.keep pass
      = h.stripHopByHop.keep pass := by
  rw [stripHopByHop_of_subset fun f hf => (pass_of_mem_keep hf).1]
  apply keep_eq_self
  intro f hf
  exact (pass_of_mem_keep hf).2

-- ============================================================ the theorem

/-- Cleaning is an exact filter. What belongs to one connection is dropped,
which are the hop-by-hop names and the names that a `connection` value lists,
and every other name keeps all its values in their order. On the way to the
origin `host`, `content-length` and the three signature fields are dropped in
addition, and no others; of a response `content-length`, and no other. To
clean once more changes nothing. -/
theorem hygiene_exact (h : Headers) :
    h.stripHopByHop.Keeps h (fun n => n ∉ FieldName.hopByHop ∧ ¬ h.Listed n)
      ∧ h.forwardable.Keeps h.stripHopByHop (fun n => n ∉ ([.host,
        .contentLength, .signer, .timestamp, .signature] : List FieldName))
      ∧ h.cacheable.Keeps h.stripHopByHop (fun n => n ≠ .contentLength)
      ∧ h.stripHopByHop.stripHopByHop = h.stripHopByHop
      ∧ h.forwardable.forwardable = h.forwardable
      ∧ h.cacheable.cacheable = h.cacheable := by
  refine ⟨?_, ?_, ?_, stripHopByHop_of_subset fun f hf => hf, clean_clean h _,
    clean_clean h fun n => !decide (n = .contentLength)⟩
  · apply keeps_keep
    intro n
    rw [Bool.not_eq_true', ← Bool.not_eq_true, isConnectionScoped_iff, not_or]
  · apply keeps_keep
    intro n
    rw [Bool.not_eq_true', ← Bool.not_eq_true, List.contains_iff_mem]
    exact Iff.rfl
  · apply keeps_keep
    intro n
    simp

end Headers

end OnceProxy.Http
