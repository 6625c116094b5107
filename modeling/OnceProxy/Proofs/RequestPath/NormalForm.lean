/-
What a normal form looks like, and which paths share one.

A normal form is written from left to right, one segment after the other,
and whether a slash goes in front of a segment is read off what stands there
already (`extend`). Whatever is written so begins with a slash, has no two
of them in a row, and ends with one only where it is nothing else (`Tidy`).
The path cannot be read off the normal form, but its names and its query can
(`names_normalize`, `query?_normalize`), and the normal form is made of these
alone; so two paths have one normal form exactly if they agree in both.
-/
import Mathlib.Data.List.Chain
import Mathlib.Data.List.Induction
import OnceProxy.Proofs.RequestPath
import OnceProxy.Proofs.Text.Pieces

namespace OnceProxy.RequestPath

-- ================================================== statement vocabulary

/-- What stands in front of the first question mark. -/
def front (path : String) : List Char := path.toList.takeWhile (· ≠ '?')

/-- What follows the first question mark, if there is one. -/
def query? (path : String) : Option (List Char) :=
  (path.toList.dropWhile (· ≠ '?')).tail?

/-- The names between the slashes in front of the query, in order. -/
def names (path : String) : List (List Char) :=
  ((front path).splitOn '/').filter (· ≠ [])

theorem segments_eq_names (path : String) : segments path.toList = names path := by
  have htest : (fun segment : List Char => !segment.isEmpty)
      = fun segment => decide (segment ≠ []) := by
    funext segment
    cases segment <;> rfl
  unfold segments names front
  rw [Text.pieces_eq_splitOn, htest]
  rfl

theorem splitQuery_fst (path : String) :
    (splitQuery path.toList).1 = front path := rfl

/-- The query comes with its question mark. -/
theorem splitQuery_snd (path : String) :
    (splitQuery path.toList).2 = (query? path).elim [] ('?' :: ·) := by
  have hhead := List.head?_dropWhile_not (· ≠ '?') path.toList
  unfold query?
  show path.toList.dropWhile (· ≠ '?') = _
  cases hrest : path.toList.dropWhile (· ≠ '?') with
  | nil => rfl
  | cons c rest =>
      rw [hrest] at hhead
      have hc : c = '?' := by simpa using hhead
      rw [hc]
      rfl

theorem query?_congr {p q : String}
    (h : (splitQuery p.toList).2 = (splitQuery q.toList).2) :
    query? p = query? q :=
  congrArg List.tail? h

theorem toList_normalize (path : String) :
    (normalize path).toList
      = joinSegments (segments path.toList) ++ (splitQuery path.toList).2 := by
  unfold normalize normalizeChars
  rw [String.toList_ofList]

theorem splitQuery_normalize (path : String) :
    splitQuery (normalize path).toList
      = (joinSegments (segments path.toList), (splitQuery path.toList).2) := by
  rw [toList_normalize, splitQuery_append (not_mem_joinSegments _)]

theorem front_normalize (path : String) :
    front (normalize path) = joinSegments (segments path.toList) := by
  rw [← splitQuery_fst, splitQuery_normalize]

theorem query?_normalize (path : String) :
    query? (normalize path) = query? path := by
  apply query?_congr
  rw [splitQuery_normalize]

theorem names_normalize (path : String) :
    names (normalize path) = names path := by
  rw [← segments_eq_names, ← segments_eq_names, toList_normalize,
    segments_joinSegments]

-- ============================================================== writing

/-- Writes a segment behind what stands there; a slash goes between them, as
soon as more than the first slash is written. -/
def extend (written segment : List Char) : List Char :=
  (if 1 < written.length then written ++ ['/'] else written) ++ segment

/-- One segment more is written behind the others. -/
theorem joinSegments_concat {segs : List (List Char)} (s : List Char)
    (hne : ∀ t ∈ segs, t ≠ []) :
    joinSegments (segs ++ [s]) = extend (joinSegments segs) s := by
  cases segs with
  | nil => simp [joinSegments, extend]
  | cons t rest =>
      have hlong : 1 < (joinSegments (t :: rest)).length := by
        have ht := List.length_pos_of_ne_nil (hne t (List.mem_cons_self ..))
        simp only [joinSegments, List.isEmpty_cons, Bool.false_eq_true,
          if_false, List.flatMap_cons, List.length_append, List.length_cons]
        omega
      unfold extend
      rw [if_pos hlong]
      simp [joinSegments]

/-- No slash stands next to a slash, none at the end but a lone one, and one
stands at the beginning. -/
structure Tidy (written : List Char) : Prop where
  first : written.head? = some '/'
  apart : written.IsChain fun c d => ¬(c = '/' ∧ d = '/')
  last : written.getLast? = some '/' ↔ written = ['/']

theorem tidy_slash : Tidy ['/'] := by
  constructor <;> simp

/-- A segment has no slash and is not empty, so it may stand behind a slash
and behind anything else. -/
theorem tidy_append {written s : List Char} (hfirst : written.head? = some '/')
    (hapart : written.IsChain fun c d => ¬(c = '/' ∧ d = '/'))
    (hslash : '/' ∉ s) (hne : s ≠ []) : Tidy (written ++ s) := by
  obtain ⟨c, rest, rfl⟩ := List.exists_cons_of_ne_nil hne
  have hsegment : (c :: rest).IsChain fun c d => ¬(c = '/' ∧ d = '/') := by
    apply List.Pairwise.isChain
    apply List.pairwise_of_forall_mem_list
    intro a ha b _ hboth
    exact hslash (hboth.1 ▸ ha)
  refine ⟨by simp [List.head?_append, hfirst], ?_, ?_⟩
  · rw [List.isChain_append]
    refine ⟨hapart, hsegment, ?_⟩
    intro x _ y hy hboth
    obtain rfl := Option.some.inj hy
    exact hslash (hboth.2 ▸ List.mem_cons_self ..)
  · -- neither side holds: the end is that of the segment
    have hend : (written ++ c :: rest).getLast? ≠ some '/' := by
      rw [List.getLast?_append_of_ne_nil _ (List.cons_ne_nil c rest)]
      intro heq
      exact hslash (List.mem_of_getLast? heq)
    constructor
    · intro heq
      exact absurd heq hend
    · intro heq
      rw [heq] at hend
      exact absurd rfl hend

/-- The step lemma: a slash is put in front of a segment only where none
stands. -/
theorem Tidy.extend {written s : List Char} (h : Tidy written)
    (hslash : '/' ∉ s) (hne : s ≠ []) : Tidy (extend written s) := by
  unfold RequestPath.extend
  by_cases hlength : 1 < written.length
  · rw [if_pos hlength]
    apply tidy_append _ _ hslash hne
    · simp [List.head?_append, h.first]
    · rw [List.isChain_append]
      refine ⟨h.apart, List.isChain_singleton _, ?_⟩
      intro x hx y _ hboth
      rw [hboth.1] at hx
      rw [h.last.mp hx] at hlength
      exact Nat.lt_irrefl _ hlength
  · rw [if_neg hlength]
    exact tidy_append h.first h.apart hslash hne

/-- However many segments are written. -/
theorem tidy_joinSegments {segs : List (List Char)}
    (h : ∀ s ∈ segs, '/' ∉ s ∧ s ≠ []) : Tidy (joinSegments segs) := by
  induction segs using List.reverseRecOn with
  | nil => exact tidy_slash
  | append_singleton segs s ih =>
      have hsegs : ∀ t ∈ segs, '/' ∉ t ∧ t ≠ [] := by
        intro t ht
        exact h t (List.mem_append_left _ ht)
      obtain ⟨hslash, hne⟩ := h s (List.mem_append_right _ (List.mem_cons_self ..))
      rw [joinSegments_concat s fun t ht => (hsegs t ht).2]
      exact (ih hsegs).extend hslash hne

theorem tidy_normalize (path : String) : Tidy (front (normalize path)) := by
  rw [front_normalize]
  apply tidy_joinSegments
  intro s hs
  obtain ⟨hslash, -, hne⟩ := segment_spec hs
  exact ⟨hslash, hne⟩

-- ============================================================ the theorem

/-- A normal form is made of names and query alone. -/
theorem normalize_congr {p q : String} (hnames : names p = names q)
    (hquery : query? p = query? q) : normalize p = normalize q := by
  unfold normalize normalizeChars
  rw [segments_eq_names, segments_eq_names, splitQuery_snd, splitQuery_snd,
    hnames, hquery]

/-- The normal form of a path begins with a slash. In front of the query no
slash follows another, and there is one at the end only if there is nothing
else; from the first question mark on it is the path, to the letter. It is
its own normal form. And two paths have one normal form exactly if they have
the same names in the same order, and the same query or none. -/
theorem normal_form (p q : String) :
    (normalize p).toList.head? = some '/'
      ∧ ¬ ['/', '/'] <:+: front (normalize p)
      ∧ ((front (normalize p)).getLast? = some '/'
        ↔ front (normalize p) = ['/'])
      ∧ (normalize p).toList
        = front (normalize p) ++ p.toList.dropWhile (· ≠ '?')
      ∧ normalize (normalize p) = normalize p
      ∧ (normalize p = normalize q ↔ names p = names q ∧ query? p = query? q) := by
  have htidy := tidy_normalize p
  refine ⟨head?_normalize p, ?_, htidy.last, ?_, normalize_normalize p, ?_, ?_⟩
  · intro hempty
    have hpair := htidy.apart.infix hempty
    rw [List.isChain_pair] at hpair
    exact hpair ⟨rfl, rfl⟩
  · rw [front_normalize, toList_normalize]
    rfl
  · intro heq
    rw [← names_normalize p, ← query?_normalize p, heq]
    exact ⟨names_normalize q, query?_normalize q⟩
  · intro ⟨hnames, hquery⟩
    exact normalize_congr hnames hquery

/-- An empty query counts, slashes that separate nothing do not. -/
example : normalize "/a//b/?" ≠ normalize "a/b"
    ∧ normalize "//a/b/" = normalize "a/b" := by decide +kernel

end OnceProxy.RequestPath
