/-
The normal form of a path is its own normal form.

The segments of a path are free of slashes, of question marks and of
emptiness, so writing them down with a slash in front of each and cutting
the result again gives the same segments back. The query is kept either
way: it begins at the first question mark, and there is none before it.
-/
import OnceProxy.RequestPath

namespace OnceProxy

open Text

-- ================================================================ pieces

namespace Text

variable {separator : Char}

theorem pieces_of_not_mem {cs : List Char} (h : separator ∉ cs) :
    pieces separator cs = [cs] := by
  induction cs with
  | nil => rfl
  | cons c cs ih =>
      obtain ⟨hc, hcs⟩ := not_or.mp (mt List.mem_cons.mpr h)
      unfold pieces
      rw [if_neg (Ne.symm hc), ih hcs]

theorem pieces_append_cons {front : List Char} (h : separator ∉ front)
    (cs : List Char) :
    pieces separator (front ++ separator :: cs)
      = front :: pieces separator cs := by
  induction front with
  | nil =>
      show pieces separator (separator :: cs) = _
      conv => lhs; unfold pieces
      rw [if_pos rfl]
  | cons c front ih =>
      obtain ⟨hc, hfront⟩ := not_or.mp (mt List.mem_cons.mpr h)
      show pieces separator (c :: (front ++ separator :: cs)) = _
      conv => lhs; unfold pieces
      rw [if_neg (Ne.symm hc), ih hfront]

/-- A piece consists of characters of the text other than the separator. -/
theorem mem_of_mem_pieces {cs piece : List Char}
    (hp : piece ∈ pieces separator cs) {c : Char} (hc : c ∈ piece) :
    c ∈ cs ∧ c ≠ separator := by
  induction cs generalizing piece with
  | nil =>
      obtain rfl := List.mem_singleton.mp hp
      cases hc
  | cons d cs ih =>
      unfold pieces at hp
      by_cases hd : d = separator
      · rw [if_pos hd] at hp
        rcases List.mem_cons.mp hp with rfl | hp'
        · cases hc
        · obtain ⟨hin, hne⟩ := ih hp' hc
          exact ⟨List.mem_cons_of_mem _ hin, hne⟩
      · rw [if_neg hd] at hp
        split at hp
        · next first rest hsplit =>
          rcases List.mem_cons.mp hp with rfl | hp'
          · rcases List.mem_cons.mp hc with rfl | hc'
            · exact ⟨List.mem_cons_self .., hd⟩
            · obtain ⟨hin, hne⟩ :=
                ih (hsplit ▸ List.mem_cons_self ..) hc'
              exact ⟨List.mem_cons_of_mem _ hin, hne⟩
          · obtain ⟨hin, hne⟩ :=
              ih (hsplit ▸ List.mem_cons_of_mem _ hp') hc
            exact ⟨List.mem_cons_of_mem _ hin, hne⟩
        · obtain rfl := List.mem_singleton.mp hp
          obtain rfl := List.mem_singleton.mp hc
          exact ⟨List.mem_cons_self .., hd⟩

end Text

namespace RequestPath

-- ============================================================== segments

/-- Cutting joined segments behind a first one gives them back. -/
theorem pieces_flatMap {first : List Char} {segs : List (List Char)}
    (hfirst : '/' ∉ first) (hsegs : ∀ s ∈ segs, '/' ∉ s) :
    pieces '/' (first ++ segs.flatMap fun s => '/' :: s) = first :: segs := by
  induction segs generalizing first with
  | nil =>
      rw [List.flatMap_nil, List.append_nil]
      exact pieces_of_not_mem hfirst
  | cons s segs ih =>
      show pieces '/' (first ++ '/' :: (s ++ segs.flatMap fun s => '/' :: s))
        = _
      rw [pieces_append_cons hfirst, ih (hsegs s (List.mem_cons_self ..))
        fun t ht => hsegs t (List.mem_cons_of_mem _ ht)]

/-- A segment has no slash and no question mark, and is not empty. -/
theorem segment_spec {cs s : List Char} (hs : s ∈ segments cs) :
    '/' ∉ s ∧ '?' ∉ s ∧ s ≠ [] := by
  obtain ⟨hpiece, hne⟩ := List.mem_filter.mp hs
  refine ⟨fun hc => (mem_of_mem_pieces hpiece hc).2 rfl, fun hc => ?_, ?_⟩
  · have hin := (mem_of_mem_pieces hpiece hc).1
    have hpass := List.all_eq_true.mp List.all_takeWhile '?' hin
    simp at hpass
  · rintro rfl
    cases hne

/-- The joined form has no question mark either. -/
theorem not_mem_joinSegments (cs : List Char) :
    '?' ∉ joinSegments (segments cs) := by
  unfold joinSegments
  split
  · decide
  · intro hmem
    obtain ⟨s, hs, hc⟩ := List.mem_flatMap.mp hmem
    rcases List.mem_cons.mp hc with heq | hin
    · cases heq
    · exact (segment_spec hs).2.1 hin

/-- Text without a question mark comes before the query. -/
theorem splitQuery_append {front : List Char} (h : '?' ∉ front)
    (cs : List Char) :
    splitQuery (front ++ (splitQuery cs).2) = (front, (splitQuery cs).2) := by
  have hfront : ∀ c ∈ front, decide (c ≠ '?') = true := by
    intro c hc
    rw [decide_eq_true_eq]
    rintro rfl
    exact h hc
  -- the query begins with a question mark, if there is one
  have hquery : (cs.dropWhile (· ≠ '?')).takeWhile (· ≠ '?') = []
      ∧ (cs.dropWhile (· ≠ '?')).dropWhile (· ≠ '?')
        = cs.dropWhile (· ≠ '?') := by
    have hhead := List.head?_dropWhile_not (· ≠ '?') cs
    cases hq : cs.dropWhile (· ≠ '?') with
    | nil => exact ⟨rfl, rfl⟩
    | cons c rest =>
        rw [hq] at hhead
        have hc : ¬decide (c ≠ '?') = true := by simpa using hhead
        exact ⟨List.takeWhile_cons_of_neg hc, List.dropWhile_cons_of_neg hc⟩
  unfold splitQuery spanChars
  rw [List.takeWhile_append_of_pos hfront,
    List.dropWhile_append_of_pos hfront, hquery.1, hquery.2,
    List.append_nil]

/-- Cutting the joined segments gives them back. -/
theorem segments_joinSegments (cs : List Char) :
    segments (joinSegments (segments cs) ++ (splitQuery cs).2)
      = segments cs := by
  have hsplit := splitQuery_append (not_mem_joinSegments cs) cs
  show (pieces '/' (splitQuery (joinSegments (segments cs)
    ++ (splitQuery cs).2)).1).filter _ = _
  rw [hsplit]
  unfold joinSegments
  cases hsegs : segments cs with
  | nil => rfl
  | cons s rest =>
      have hspec : ∀ t ∈ s :: rest, '/' ∉ t ∧ '?' ∉ t ∧ t ≠ [] := by
        intro t ht
        rw [← hsegs] at ht
        exact segment_spec ht
      have hpieces : pieces '/' ([] ++ (s :: rest).flatMap fun t => '/' :: t)
          = [] :: s :: rest :=
        pieces_flatMap List.not_mem_nil fun t ht => (hspec t ht).1
      rw [List.nil_append] at hpieces
      show (pieces '/' ((s :: rest).flatMap fun t => '/' :: t)).filter _ = _
      rw [hpieces, List.filter_cons_of_neg (by simp), List.filter_eq_self]
      intro t ht
      simpa using (hspec t ht).2.2

theorem normalizeChars_normalizeChars (cs : List Char) :
    normalizeChars (normalizeChars cs) = normalizeChars cs := by
  show joinSegments (segments (joinSegments (segments cs)
      ++ (splitQuery cs).2))
    ++ (splitQuery (joinSegments (segments cs) ++ (splitQuery cs).2)).2 = _
  rw [segments_joinSegments, splitQuery_append (not_mem_joinSegments cs)]
  rfl

/-- A path in normal form begins with a slash. -/
theorem head?_normalize (path : String) :
    (normalize path).toList.head? = some '/' := by
  unfold normalize normalizeChars
  rw [String.toList_ofList]
  cases segments path.toList with
  | nil => rfl
  | cons s rest => rfl

/-- A normal form has no characters of its own but slashes. -/
theorem mem_normalize {path : String} {c : Char}
    (h : c ∈ (normalize path).toList) : c = '/' ∨ c ∈ path.toList := by
  unfold normalize normalizeChars at h
  rw [String.toList_ofList] at h
  rcases List.mem_append.mp h with h | h
  · unfold joinSegments at h
    split at h
    · exact .inl (List.mem_singleton.mp h)
    · obtain ⟨s, hs, hc⟩ := List.mem_flatMap.mp h
      rcases List.mem_cons.mp hc with rfl | hc
      · exact .inl rfl
      · have hpiece := (List.mem_filter.mp hs).1
        have hin := (mem_of_mem_pieces hpiece hc).1
        exact .inr (List.takeWhile_subset _ hin)
  · exact .inr (List.dropWhile_subset _ h)

/-- A path in normal form is in normal form. -/
theorem normalize_normalize (path : String) :
    normalize (normalize path) = normalize path := by
  unfold normalize
  rw [String.toList_ofList, normalizeChars_normalizeChars]

end RequestPath

end OnceProxy
