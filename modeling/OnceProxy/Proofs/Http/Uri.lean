/-
What a URI takes over from the text that it is read from.

The authority ends at the first of three characters, whatever checks its
own characters have to pass, and a target goes up to a fragment. So where a
text is a scheme, an authority and more, the parts of the URI are known as
soon as there is one (`parse_http`).
-/
import Mathlib.Data.List.Basic
import OnceProxy.Http.Uri

namespace OnceProxy.Http.Uri

/-- The characters behind which an authority cannot go on. -/
def IsDelimiter (c : Char) : Prop := c = '/' ∨ c = '?' ∨ c = '#'

instance (c : Char) : Decidable (IsDelimiter c) :=
  inferInstanceAs (Decidable (_ ∨ _ ∨ _))

-- ============================================================== targets

theorem parseTarget_ok {cs : List Char} {target : String}
    (h : parseTarget cs = .ok target) :
    target = String.ofList (cs.takeWhile (· ≠ '#')) := by
  unfold parseTarget at h
  dsimp only at h
  split at h
  · exact (Except.ok.inj h).symm
  · cases h

theorem hash_not_mem_parseTarget {cs : List Char} {target : String}
    (h : parseTarget cs = .ok target) : '#' ∉ target.toList := by
  rw [parseTarget_ok h, String.toList_ofList]
  intro hmem
  have hpass := List.all_eq_true.mp List.all_takeWhile '#' hmem
  simp at hpass

-- =========================================================== authorities

/-- The scan stops at the first delimiter, or it fails. -/
theorem scanAuthority_ok {cs : List Char} {length n : Nat}
    {s : AuthorityState} (h : scanAuthority length s cs = .ok n) :
    n = length + (cs.takeWhile fun c => !decide (IsDelimiter c)).length := by
  have hfinish : ∀ {length : Nat} {s : AuthorityState},
      scanAuthority.finish length s = .ok n → n = length := by
    intro length s h
    unfold scanAuthority.finish at h
    split at h
    · cases h
    · exact (Except.ok.inj h).symm
  induction cs generalizing length s with
  | nil => exact hfinish h
  | cons c cs ih =>
      unfold scanAuthority at h
      split at h
      · next hc =>
        have hstop : IsDelimiter c := hc
        rw [List.takeWhile_cons_of_neg (by simpa using hstop)]
        exact hfinish h
      · next hc =>
        have hgo : ¬IsDelimiter c := hc
        -- every check of the character fails, or the scan goes on
        have hnext : ∃ t, scanAuthority (length + 1) t cs = .ok n := by
          repeat' split at h
          all_goals first
            | exact ⟨_, h⟩
            | cases h
        obtain ⟨t, ht⟩ := hnext
        rw [ih ht, List.takeWhile_cons_of_pos (by simpa using hgo),
          List.length_cons]
        omega

theorem authorityLength_ok {authority rest : List Char} {n : Nat}
    (hauthority : ∀ c ∈ authority, ¬IsDelimiter c)
    (hrest : ∀ c ∈ rest.head?, IsDelimiter c)
    (h : authorityLength (authority ++ rest) = .ok n) :
    n = authority.length := by
  have hfront : ∀ c ∈ authority, (!decide (IsDelimiter c)) = true := by
    intro c hc
    simpa using hauthority c hc
  have hstop : rest.takeWhile (fun c => !decide (IsDelimiter c)) = [] := by
    cases rest with
    | nil => rfl
    | cons c rest =>
        have hc := hrest c rfl
        exact List.takeWhile_cons_of_neg (by simpa using hc)
  rw [scanAuthority_ok h, List.takeWhile_append_of_pos hfront, hstop,
    List.append_nil, Nat.zero_add]

-- ================================================================== URIs

/-- What a URI is made of: a lone star, a path, a lone authority, or a scheme
with an authority and what is behind it. -/
theorem parse_cases {s : String} {u : Uri} (h : parse s = .ok u) :
    (s.toList = ['*'] ∧ u = ⟨none, "", "*"⟩)
      ∨ (s.toList.head? = some '/' ∧ ∃ target,
        parseTarget s.toList = .ok target ∧ u = ⟨none, "", target⟩)
      ∨ ∃ scheme rest n, splitScheme s.toList = .ok (scheme, rest)
        ∧ authorityLength rest = .ok n
        ∧ (scheme = none ∧ u = ⟨none, String.ofList (rest.take n), ""⟩
          ∨ ∃ name target, scheme = some name
            ∧ parseTarget (rest.drop n) = .ok target
            ∧ u = ⟨some name, String.ofList (rest.take n), target⟩) := by
  unfold parse at h
  dsimp only [bind, Except.bind] at h
  split at h
  · cases h
  split at h
  · cases h
  · next hs =>
    cases h
    exact .inl ⟨hs, rfl⟩
  · next cs hs =>
    refine .inr (.inl ⟨by rw [hs]; rfl, ?_⟩)
    split at h
    · cases h
    · next target htarget =>
      cases h
      exact ⟨target, htarget, rfl⟩
  · refine .inr (.inr ?_)
    split at h
    · cases h
    · next parts hparts =>
      obtain ⟨scheme, rest⟩ := parts
      split at h
      · cases h
      · next n hn =>
        refine ⟨scheme, rest, n, hparts, hn, ?_⟩
        cases scheme with
        | none =>
            dsimp only at h
            split at h
            · cases h
              exact .inl ⟨rfl, rfl⟩
            · split at h <;> cases h
        | some name =>
            dsimp only at h
            split at h
            · cases h
            · split at h
              · cases h
              · next target htarget =>
                cases h
                exact .inr ⟨name, target, rfl, htarget, rfl⟩

theorem hash_not_mem_target {s : String} {u : Uri} (h : parse s = .ok u) :
    '#' ∉ u.target.toList := by
  rcases parse_cases h with ⟨-, rfl⟩ | ⟨-, target, htarget, rfl⟩
    | ⟨scheme, rest, n, -, -, ⟨-, rfl⟩ | ⟨name, target, -, htarget, rfl⟩⟩
  · decide
  · exact hash_not_mem_parseTarget htarget
  · exact List.not_mem_nil
  · exact hash_not_mem_parseTarget htarget

theorem parse_http {s : String} {authority rest : List Char} {u : Uri}
    (hs : s.toList = "http://".toList ++ (authority ++ rest))
    (hauthority : ∀ c ∈ authority, ¬IsDelimiter c)
    (hrest : ∀ c ∈ rest.head?, IsDelimiter c) (h : parse s = .ok u) :
    u = ⟨some "http", String.ofList authority,
      String.ofList (rest.takeWhile (· ≠ '#'))⟩ := by
  have hsplit : splitScheme s.toList
      = .ok (some "http", authority ++ rest) := by
    rw [hs]
    rfl
  rcases parse_cases h with ⟨hstar, -⟩ | ⟨hslash, -⟩
    | ⟨scheme, behind, n, hparts, hn, hu⟩
  · rw [hs] at hstar
    cases hstar
  · rw [hs] at hslash
    cases hslash
  · rw [hsplit] at hparts
    cases hparts
    obtain rfl := authorityLength_ok hauthority hrest hn
    rw [List.take_left, List.drop_left] at hu
    rcases hu with ⟨hnone, -⟩ | ⟨name, target, hname, htarget, rfl⟩
    · cases hnone
    · cases hname
      rw [parseTarget_ok htarget]

end OnceProxy.Http.Uri
