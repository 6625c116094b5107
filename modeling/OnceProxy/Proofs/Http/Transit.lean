/-
What of a header map gets across.

A map is known by the values that it has for each name; setting a field,
dropping fields and the wire are stated as what they do to those. The wire
drops blanks around values, so a value of visible characters only gets
across as it is, and with it the text that it spells.
-/
import Mathlib.Data.List.DropRight
import OnceProxy.Http.Wire
import OnceProxy.IdempotencyKey
import OnceProxy.Proofs.Octets

namespace OnceProxy

-- ========================================================== visible texts

/-- The text has visible characters only. -/
def IsVisibleText (s : String) : Prop := ∀ c ∈ s.toList, isVisible c = true

theorem isVisible_iff {c : Char} :
    isVisible c = true ↔ 0x21 ≤ c.toNat ∧ c.toNat ≤ 0x7e := by
  unfold isVisible
  rw [Bool.and_eq_true, decide_eq_true_eq, decide_eq_true_eq]

theorem IsVisibleText.ofText {s : String} (h : IsVisibleText s) :
    Octets.ofText s = Octets.ofLatin1 s := by
  rw [Octets.ofText_eq_flatMap, Octets.ofLatin1]
  unfold IsVisibleText at h
  generalize s.toList = cs at h
  induction cs with
  | nil => rfl
  | cons c cs ih =>
      obtain ⟨-, hc⟩ := isVisible_iff.mp (h c (List.mem_cons_self ..))
      have hone : String.utf8EncodeChar c = [UInt8.ofNat c.toNat] :=
        if_pos (Nat.le_trans hc (by decide))
      rw [List.flatMap_cons, hone, List.map_cons,
        ih fun d hd => h d (List.mem_cons_of_mem c hd)]
      rfl

theorem IsVisibleText.mem_ofLatin1 {s : String} (h : IsVisibleText s)
    {o : UInt8} (ho : o ∈ Octets.ofLatin1 s) :
    ∃ c ∈ s.toList, o.toNat = c.toNat ∧ 0x21 ≤ o.toNat ∧ o.toNat ≤ 0x7e := by
  obtain ⟨c, hc, rfl⟩ := List.mem_map.mp ho
  obtain ⟨hlow, hhigh⟩ := isVisible_iff.mp (h c hc)
  have hnat : (UInt8.ofNat c.toNat).toNat = c.toNat := by
    rw [UInt8.toNat_ofNat']
    omega
  exact ⟨c, hc, hnat, by omega, by omega⟩

theorem IsVisibleText.toLatin1 {s : String} (h : IsVisibleText s) :
    Octets.toLatin1 (Octets.ofLatin1 s) = s := by
  unfold Octets.toLatin1 Octets.ofLatin1
  rw [List.map_map]
  have hchars : s.toList.map ((fun o : UInt8 => Char.ofNat o.toNat)
      ∘ fun c => UInt8.ofNat c.toNat) = s.toList := by
    refine (List.map_congr_left fun c hc => ?_).trans (List.map_id _)
    obtain ⟨-, hhigh⟩ := isVisible_iff.mp (h c hc)
    show Char.ofNat (UInt8.ofNat c.toNat).toNat = c
    rw [UInt8.toNat_ofNat', Nat.mod_eq_of_lt (by omega), Char.ofNat_toNat]
  rw [hchars, String.ofList_toList]

theorem IdempotencyKey.isVisibleText (key : IdempotencyKey) :
    IsVisibleText key.text := by
  have hvalid := key.valid
  unfold isKeyText at hvalid
  simp only [Bool.and_eq_true] at hvalid
  exact List.all_eq_true.mp hvalid.1.2

namespace Http

-- ================================================================= values

namespace FieldValue

/-- The value has visible characters only. -/
def Visible (v : FieldValue) : Prop :=
  ∀ o ∈ v.octets, 0x21 ≤ o.toNat ∧ o.toNat ≤ 0x7e

/-- Nothing is lost of such a value on the wire. -/
theorem Visible.trimmed {v : FieldValue} (h : v.Visible) : v.trimmed = v := by
  have hkeep : ∀ b : Octets,
      (∀ o ∈ b, 0x21 ≤ o.toNat ∧ o.toNat ≤ 0x7e) →
      b.dropWhile isBlankOctet = b := by
    intro b hb
    cases b with
    | nil => rfl
    | cons o b =>
        have ho := (hb o (List.mem_cons_self ..)).1
        refine List.dropWhile_cons_of_neg fun hblank => ?_
        unfold isBlankOctet at hblank
        rw [Bool.or_eq_true, beq_iff_eq, beq_iff_eq] at hblank
        rcases hblank with rfl | rfl
        · exact absurd ho (by decide)
        · exact absurd ho (by decide)
  unfold FieldValue.trimmed
  simp only
  rw [hkeep _ h, hkeep _ fun o ho => h o (List.mem_reverse.mp ho),
    List.reverse_reverse]
  unfold ofOctets?
  rw [dif_pos v.valid]
  rfl

/-- Where there is nothing to drop in front, there is nothing after the end
has been dropped. -/
theorem dropWhile_rdropWhile {p : UInt8 → Bool} {b : Octets}
    (h : b.dropWhile p = b) :
    (b.rdropWhile p).dropWhile p = b.rdropWhile p := by
  cases hb : b.rdropWhile p with
  | nil => rfl
  | cons o c =>
      obtain ⟨rest, hrest⟩ := hb ▸ List.rdropWhile_prefix p b
      refine List.dropWhile_cons_of_neg fun ho => ?_
      rw [← hrest, List.cons_append, List.dropWhile_cons_of_pos ho] at h
      have hlen := congrArg List.length h
      have hle := (List.dropWhile_suffix p (l := c ++ rest)).length_le
      rw [List.length_cons] at hlen
      omega

/-- What is left of octets without blanks around them. -/
def strip (b : Octets) : Octets :=
  (b.dropWhile isBlankOctet).rdropWhile isBlankOctet

theorem strip_strip (b : Octets) : strip (strip b) = strip b := by
  unfold strip
  rw [dropWhile_rdropWhile (List.dropWhile_idempotent _ _),
    List.rdropWhile_idempotent]

theorem trimmed_eq (v : FieldValue) :
    v.trimmed = (ofOctets? (strip v.octets)).getD v := rfl

/-- What got across once loses nothing more. -/
theorem trimmed_trimmed (v : FieldValue) : v.trimmed.trimmed = v.trimmed := by
  cases hv : ofOctets? (strip v.octets) with
  | none =>
      have hsame : v.trimmed = v := by rw [trimmed_eq, hv, Option.getD_none]
      rw [hsame, hsame]
  | some w =>
      obtain ⟨hvalid, hw⟩ := Option.dite_none_right_eq_some.mp hv
      have hoctets : w.octets = strip v.octets :=
        (congrArg octets (Option.some.inj hw)).symm
      rw [trimmed_eq v, hv, Option.getD_some, trimmed_eq, hoctets, strip_strip,
        hv, Option.getD_some]

theorem visible_of_text? {v : FieldValue} {s : String}
    (hs : v.text? = some s) (h : IsVisibleText s) : v.Visible := by
  unfold text? at hs
  obtain ⟨-, hs⟩ := Option.ite_none_right_eq_some.mp hs
  have hs := Option.some.inj hs
  intro o ho
  have hc : Char.ofNat o.toNat ∈ s.toList := by
    rw [← hs, Octets.toLatin1, String.toList_ofList]
    exact List.mem_map_of_mem ho
  have hnat : (Char.ofNat o.toNat).toNat = o.toNat := by
    have hlt := o.toNat_lt
    have hcode : o.toNat.isValidChar := Or.inl (by omega)
    unfold Char.ofNat
    rw [dif_pos hcode]
    rfl
  have hvisible := isVisible_iff.mp (h _ hc)
  rw [hnat] at hvisible
  exact hvisible

variable {s : String} (h : IsVisibleText s)

include h

theorem octets_ofText : (ofText s).octets = Octets.ofLatin1 s := by
  have hvalid : (Octets.ofText s).all isValueOctet = true := by
    rw [h.ofText, List.all_eq_true]
    intro o ho
    obtain ⟨c, -, -, hlow, hhigh⟩ := h.mem_ofLatin1 ho
    have hle : (32 : UInt8) ≤ o := UInt8.le_iff_toNat_le.mpr (by
      have : (32 : UInt8).toNat = 32 := rfl
      omega)
    have hne : o ≠ 127 := by
      rintro rfl
      exact absurd hhigh (by decide)
    unfold isValueOctet
    simp [hle, hne]
  unfold ofText ofOctets?
  rw [dif_pos hvalid]
  exact h.ofText

theorem visible_ofText : (ofText s).Visible := by
  intro o ho
  rw [octets_ofText h] at ho
  obtain ⟨c, -, -, hrange⟩ := h.mem_ofLatin1 ho
  exact hrange

theorem text?_ofText : (ofText s).text? = some s := by
  have hplain : (ofText s).octets.all isPlainOctet = true := by
    rw [List.all_eq_true]
    intro o ho
    obtain ⟨hlow, hhigh⟩ := visible_ofText h o ho
    have hle : (32 : UInt8) ≤ o := UInt8.le_iff_toNat_le.mpr (by
      have : (32 : UInt8).toNat = 32 := rfl
      omega)
    have hlt : o < 127 := UInt8.lt_iff_toNat_lt.mpr (by
      have : (127 : UInt8).toNat = 127 := rfl
      omega)
    unfold isPlainOctet
    simp [hle, hlt]
  unfold text?
  rw [if_pos hplain, octets_ofText h, h.toLatin1]

end FieldValue

-- =================================================================== maps

namespace Headers

variable (h : Headers) (n m : FieldName)

/-- A field that is set is the only one of its name, and the others stay. -/
theorem values_insert (v : FieldValue) :
    (h.insert n v).values m = if m = n then [v] else h.values m := by
  have hsplit := List.takeWhile_append_dropWhile
    (p := fun f : Field => !decide (f.1 = n)) (l := h.fields)
  unfold insert values
  dsimp only
  rw [List.filter_append, List.filter_cons, List.filter_filter]
  by_cases hm : m = n
  · subst hm
    have hbefore : (h.fields.takeWhile fun f => !decide (f.1 = m)).filter
        (fun f => decide (f.1 = m)) = [] := by
      rw [List.filter_eq_nil_iff]
      intro f hf
      have hother := List.all_eq_true.mp List.all_takeWhile f hf
      simpa using hother
    rw [hbefore, if_pos rfl, if_pos (decide_eq_true rfl)]
    simp
  · have hbehind : ∀ f : Field,
        (decide (f.1 = m) && !decide (f.1 = n)) = decide (f.1 = m) := by
      intro f
      by_cases hf : f.1 = m
      · simp [hf, hm]
      · simp [hf]
    rw [if_neg hm, if_neg (by simpa using Ne.symm hm)]
    simp only [hbehind]
    rw [← List.filter_append, hsplit]

/-- Fields of other names are not moved by one that is set. -/
theorem keep_insert {pass : FieldName → Bool} (hn : pass n = false)
    (v : FieldValue) : (h.insert n v).keep pass = h.keep pass := by
  have hsplit := List.takeWhile_append_dropWhile
    (p := fun f : Field => !decide (f.1 = n)) (l := h.fields)
  have hother : ∀ f : Field,
      (pass f.1 && !decide (f.1 = n)) = pass f.1 := by
    intro f
    by_cases hf : f.1 = n
    · simp [hf, hn]
    · simp [hf]
  unfold insert keep
  dsimp only
  rw [List.filter_append, List.filter_cons_of_neg (by simp [hn]),
    List.filter_filter]
  simp only [hother]
  rw [← List.filter_append, hsplit]

theorem values_keep (pass : FieldName → Bool) :
    (h.keep pass).values m = if pass m then h.values m else [] := by
  unfold keep values
  dsimp only
  rw [List.filter_filter]
  by_cases hm : pass m = true
  · rw [if_pos hm]
    refine congrArg _ (List.filter_congr fun f _ => ?_)
    by_cases hf : f.1 = m
    · simp [hf, hm]
    · simp [hf]
  · rw [if_neg hm, List.map_eq_nil_iff, List.filter_eq_nil_iff]
    intro f _ hf
    rw [Bool.and_eq_true, decide_eq_true_eq] at hf
    exact hm (hf.1 ▸ hf.2)

theorem values_onWire :
    h.onWire.values m = (h.values m).map FieldValue.trimmed := by
  unfold onWire values
  dsimp only
  rw [List.filter_map, List.map_map, List.map_map]
  rfl

/-- The fields of a name cross the proxy together or not at all. -/
theorem values_forwardable :
    h.forwardable.values m
      = if h.isConnectionScoped m || reservedNames.contains m then []
        else h.values m := by
  unfold forwardable stripHopByHop
  rw [values_keep, values_keep]
  cases h.isConnectionScoped m <;> cases reservedNames.contains m <;> rfl

end Headers

end Http

end OnceProxy
