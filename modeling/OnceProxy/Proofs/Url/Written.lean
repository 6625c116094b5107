/-
The written form of a URL, part by part.

Reading brings every part into a form in which none of it can be taken for
something else: host, credentials and port are free of the characters that
would end the authority, and a path begins with a slash and has neither a
query nor a fragment in it. This is shown of plain HTTP URLs, the only ones
that a proxy is configured with.
-/
import Mathlib.Data.List.Basic
import OnceProxy.Proofs.Http.Uri
import OnceProxy.Proofs.Text.Pieces
import OnceProxy.Url.Parse

namespace OnceProxy.Url

open Http.Uri (IsDelimiter)
open Text

-- ============================================================ delimiters

/-- There is no delimiter among the characters. -/
def Bare (cs : List Char) : Prop := ∀ c ∈ cs, ¬IsDelimiter c

instance (cs : List Char) : Decidable (Bare cs) :=
  List.decidableBAll (fun c => ¬IsDelimiter c) cs

theorem bare_nil : Bare [] := fun _ h => absurd h List.not_mem_nil

theorem Bare.append {cs ds : List Char} (hc : Bare cs) (hd : Bare ds) :
    Bare (cs ++ ds) := by
  intro c h
  rcases List.mem_append.mp h with h | h
  · exact hc c h
  · exact hd c h

theorem mem_intercalate {a : α} {separator : List α} {parts : List (List α)}
    (h : a ∈ separator.intercalate parts) :
    a ∈ separator ∨ ∃ part ∈ parts, a ∈ part := by
  induction parts with
  | nil => cases h
  | cons part parts ih =>
      cases parts with
      | nil =>
          rw [List.intercalate_singleton] at h
          exact .inr ⟨part, List.mem_cons_self .., h⟩
      | cons next parts =>
          rw [List.intercalate_cons_cons] at h
          rcases List.mem_append.mp h with h | h
          · rcases List.mem_append.mp h with h | h
            · exact .inr ⟨part, List.mem_cons_self .., h⟩
            · exact .inl h
          · rcases ih h with h | ⟨p, hp, h⟩
            · exact .inl h
            · exact .inr ⟨p, List.mem_cons_of_mem _ hp, h⟩

theorem Bare.intercalate {separator : String} {parts : List String}
    (hs : Bare separator.toList) (hparts : ∀ p ∈ parts, Bare p.toList) :
    Bare (separator.intercalate parts).toList := by
  intro c h
  rw [String.toList_intercalate] at h
  rcases mem_intercalate h with h | ⟨cs, hcs, h⟩
  · exact hs c h
  · obtain ⟨p, hp, rfl⟩ := List.mem_map.mp hcs
    exact hparts p hp c h

/-- The digits of a number are none, in any base up to 16. -/
theorem bare_toDigits {base : Nat} (hlow : 1 < base) (hhigh : base ≤ 16)
    (n : Nat) : Bare (Nat.toDigits base n) := by
  have hdigit : ∀ n < 16, ¬IsDelimiter n.digitChar := by decide
  induction n using Nat.strongRecOn with
  | ind n ih =>
    by_cases hn : n < base
    · rw [Nat.toDigits_of_lt_base hn]
      intro c hc
      obtain rfl := List.mem_singleton.mp hc
      exact hdigit n (by omega)
    · have hpos : 0 < n := by omega
      rw [Nat.toDigits_of_base_le hlow (Nat.not_lt.mp hn)]
      refine (ih (n / base) (Nat.div_lt_self hpos hlow)).append fun c hc => ?_
      obtain rfl := List.mem_singleton.mp hc
      have hmod := Nat.mod_lt n (Nat.zero_lt_of_lt hlow)
      exact hdigit (n % base) (by omega)

theorem bare_toString (n : Nat) : Bare (toString n).toList := by
  show Bare (String.ofList (Nat.toDigits 10 n)).toList
  rw [String.toList_ofList]
  exact bare_toDigits (by decide) (by decide) n

theorem not_mem_percentEncode {inSet : Char → Bool} {c : Char}
    (hset : inSet c = true) (hc : c = '/' ∨ c = '?' ∨ c = '#')
    (cs : List Char) : c ∉ percentEncode inSet cs := by
  have hdigit : ∀ n < 16, ¬IsDelimiter (Hex.digit n).toUpper := by decide
  intro h
  obtain ⟨d, -, h⟩ := List.mem_flatMap.mp h
  split at h
  · obtain ⟨o, -, h⟩ := List.mem_flatMap.mp h
    have ho := o.toNat_lt
    simp only [List.mem_cons, List.not_mem_nil, or_false] at h
    rcases h with rfl | rfl | rfl
    · revert hc
      decide
    · exact hdigit _ (by omega) hc
    · exact hdigit _ (by omega) hc
  · next hd =>
    obtain rfl := List.mem_singleton.mp h
    rw [hset] at hd
    exact hd rfl

-- ================================================================= hosts

theorem bare_renderIpv4 (n : Nat) : Bare (renderIpv4 n).toList := by
  refine .intercalate (by decide) fun p hp => ?_
  obtain ⟨m, -, rfl⟩ := List.mem_map.mp hp
  exact bare_toString m

theorem renderIpv4_ne_nil (n : Nat) : (renderIpv4 n).toList ≠ [] := by
  unfold renderIpv4
  rw [String.toList_intercalate]
  simp only [List.map_cons, List.intercalate_cons_cons, List.append_assoc]
  intro hnil
  cases (List.append_eq_nil_iff.mp (List.append_eq_nil_iff.mp hnil).2).1

theorem bare_renderIpv6 (groups : List Nat) :
    Bare (renderIpv6 groups).toList := by
  have hgroups : ∀ gs : List Nat, Bare (":".intercalate
      (gs.map fun n => String.ofList (Nat.toDigits 16 n))).toList := by
    intro gs
    refine .intercalate (by decide) fun p hp => ?_
    obtain ⟨m, -, rfl⟩ := List.mem_map.mp hp
    rw [String.toList_ofList]
    exact bare_toDigits (by decide) (by decide) m
  unfold renderIpv6
  dsimp only
  split
  · exact hgroups groups
  · rw [String.toList_append, String.toList_append]
    exact ((hgroups _).append (by decide)).append (hgroups _)

theorem bare_domainToAscii {b : Octets} {cs : List Char}
    (h : domainToAscii b = .ok cs) : Bare cs := by
  unfold domainToAscii at h
  dsimp only at h
  split at h
  · next result hresult =>
    obtain rfl := Except.ok.inj h
    obtain ⟨text, -, hresult⟩ := Option.bind_eq_some_iff.mp hresult
    obtain ⟨mapped, -, hresult⟩ := Option.bind_eq_some_iff.mp hresult
    obtain ⟨labels, -, hresult⟩ := Option.bind_eq_some_iff.mp hresult
    split at hresult
    · cases hresult
    · next hallowed =>
      obtain rfl := Option.some.inj hresult
      intro c hc hdelimiter
      have hforbidden : isForbiddenInDomain c = true := by
        rcases hdelimiter with rfl | rfl | rfl <;> decide
      exact hallowed (List.any_eq_true.mpr ⟨c, hc, hforbidden⟩)
  · cases h

theorem parseHost_ok {cs : List Char} {host : String}
    (h : parseHost cs = .ok host) : host.toList ≠ [] ∧ Bare host.toList := by
  unfold parseHost bracketed at h
  dsimp only [bind, Except.bind] at h
  split at h
  · split at h
    · cases h
    · split at h
      · cases h
      · next groups _ =>
        obtain rfl := Except.ok.inj h
        rw [String.toList_append, String.toList_append]
        exact ⟨List.cons_ne_nil _ _,
          (Bare.append (by decide) (bare_renderIpv6 groups)).append
            (by decide)⟩
  · split at h
    · cases h
    · next domain hdomain =>
      split at h
      · cases h
      · next hempty =>
        split at h
        · split at h
          · cases h
          · next n _ =>
            obtain rfl := Except.ok.inj h
            exact ⟨renderIpv4_ne_nil n, bare_renderIpv4 n⟩
        · obtain rfl := Except.ok.inj h
          rw [String.toList_ofList]
          exact ⟨fun hnil => hempty (List.isEmpty_iff.mpr hnil),
            bare_domainToAscii hdomain⟩

theorem bare_renderCredentials (cs : List Char) :
    Bare (renderCredentials cs).toList := by
  have hencoded : ∀ cs : List Char,
      Bare (String.ofList (percentEncode inCredentialSet cs)).toList := by
    intro cs c hc hdelimiter
    rw [String.toList_ofList] at hc
    refine not_mem_percentEncode ?_ hdelimiter cs hc
    rcases hdelimiter with rfl | rfl | rfl <;> decide
  unfold renderCredentials
  dsimp only
  rw [String.toList_append]
  refine (hencoded _).append ?_
  split
  · exact bare_nil
  · rw [String.toList_append]
    exact Bare.append (by decide) (hencoded _)

-- ================================================================= paths

/-- The last segment leaves something, whatever it is. -/
theorem resolveDots_ne_nil (kept : List (List Char)) {segment : List Char}
    {rest : List (List Char)} : resolveDots kept (segment :: rest) ≠ [] := by
  induction rest generalizing kept segment with
  | nil =>
      unfold resolveDots
      split
      · exact List.append_ne_nil_of_right_ne_nil _ (List.cons_ne_nil _ _)
      · split
        · exact List.append_ne_nil_of_right_ne_nil _ (List.cons_ne_nil _ _)
        · exact List.append_ne_nil_of_right_ne_nil _ (List.cons_ne_nil _ _)
  | cons next rest ih =>
      unfold resolveDots
      split
      · exact ih _
      · split
        · exact ih _
        · exact ih _

/-- The written path of a special URL. -/
theorem renderPath_special (cs : List Char) :
    (renderPath true cs).toList.head? = some '/'
      ∧ ∀ c ∈ (renderPath true cs).toList, c ≠ '?' ∧ c ≠ '#' := by
  have hsegment : ∀ segments : List (List Char), ∀ c ∈ segments.flatMap
      (fun s => '/' :: percentEncode inPathSet s), c ≠ '?' ∧ c ≠ '#' := by
    intro segments c hc
    obtain ⟨s, -, hc⟩ := List.mem_flatMap.mp hc
    rcases List.mem_cons.mp hc with rfl | hc
    · decide
    · constructor
      · rintro rfl
        exact not_mem_percentEncode (by decide) (.inr (.inl rfl)) s hc
      · rintro rfl
        exact not_mem_percentEncode (by decide) (.inr (.inr rfl)) s hc
  unfold renderPath
  dsimp only
  rw [if_pos rfl]
  split
  · refine ⟨rfl, fun c hc => ?_⟩
    obtain rfl := List.mem_singleton.mp hc
    decide
  · rw [String.toList_ofList]
    refine ⟨?_, hsegment _⟩
    generalize hsegments : pieces '/' _ = segments
    cases segments with
    | nil => exact absurd hsegments (pieces_ne_nil _ _)
    | cons segment rest =>
        cases hresolved : resolveDots [] (segment :: rest) with
        | nil => exact absurd hresolved (resolveDots_ne_nil _)
        | cons first more => rfl

-- ================================================================== URLs

/-- The authority of a special URL has a host. -/
theorem parseAuthority_special {scheme : String} {cs : List Char}
    {parts : String × Option String × Option Nat}
    (h : parseAuthority scheme true cs = .ok parts) :
    Bare parts.1.toList ∧ ∃ host, parts.2.1 = some host
      ∧ host.toList ≠ [] ∧ Bare host.toList := by
  unfold parseAuthority at h
  dsimp only [bind, Except.bind] at h
  split at h
  · rw [if_pos (.inl rfl)] at h
    cases h
  · rw [if_pos rfl] at h
    split at h
    · cases h
    · next host hhost =>
      split at h
      · cases h
      · obtain rfl := Except.ok.inj h
        exact ⟨bare_renderCredentials _, host, rfl, parseHost_ok hhost⟩

/-- The scheme of a URL is read before everything else. -/
theorem parse_scheme {s : String} {u : Url} (h : parse s = .ok u) :
    ∃ rest, splitScheme (significant s) = some (u.scheme, rest) := by
  unfold parse at h
  split at h
  · next scheme rest hsplit =>
    dsimp only [bind, Except.bind] at h
    generalize (ite (scheme = "file") _ _
      : Option (List Char) × List Char) = parts at h
    have hscheme : u.scheme = scheme := by
      repeat' split at h
      all_goals first
        | cases h; done
        | exact (congrArg Url.scheme (Except.ok.inj h)).symm
    exact ⟨rest, hscheme ▸ hsplit⟩
  · cases h

/-- What is written of a URL behind its query. -/
def writtenFragment (u : Url) : List Char :=
  match u.fragment with
  | some f => '#' :: f.toList
  | none => []

/-- What the parts of a plain HTTP URL are like. -/
structure IsWritten (u : Url) : Prop where
  credentials : Bare u.credentials.toList
  host : ∃ host, u.host = some host ∧ host.toList ≠ [] ∧ Bare host.toList
  path_slash : u.path.toList.head? = some '/'
  path : ∀ c ∈ u.path.toList, c ≠ '?' ∧ c ≠ '#'

theorem parse_isWritten {s : String} {u : Url} (h : parse s = .ok u)
    (hhttp : u.scheme = "http") : u.IsWritten := by
  obtain ⟨rest, hrest⟩ := parse_scheme h
  rw [hhttp] at hrest
  unfold parse at h
  rw [hrest] at h
  have hspecial : (specialPorts.lookup "http").isSome = true := rfl
  dsimp only [bind, Except.bind] at h
  simp only [hspecial, String.reduceEq, if_false] at h
  split at h
  · next hnone => cases hnone
  · cases h
  · split at h
    · cases h
    · next parts hparts =>
      obtain rfl := Except.ok.inj h
      obtain ⟨hcredentials, hhost⟩ := parseAuthority_special hparts
      obtain ⟨hslash, hpath⟩ := renderPath_special _
      exact ⟨hcredentials, hhost, hslash, hpath⟩

namespace IsWritten

variable {u : Url} (h : u.IsWritten)

include h

/-- The authority is not empty, and ends where it ends. -/
theorem authority : u.authority.toList ≠ [] ∧ Bare u.authority.toList := by
  obtain ⟨host, hhost, hne, hbare⟩ := h.host
  have hcredentials : Bare (if u.credentials.isEmpty then ""
      else u.credentials ++ "@").toList := by
    split
    · exact bare_nil
    · rw [String.toList_append]
      exact h.credentials.append (by decide)
  have hcut : ∀ port : String, Bare port.toList →
      ((if u.credentials.isEmpty then "" else u.credentials ++ "@")
        ++ host ++ port).toList ≠ []
      ∧ Bare ((if u.credentials.isEmpty then "" else u.credentials ++ "@")
        ++ host ++ port).toList := by
    intro port hport
    rw [String.toList_append, String.toList_append]
    refine ⟨fun hnil => ?_, (hcredentials.append hbare).append hport⟩
    exact hne (List.append_eq_nil_iff.mp (List.append_eq_nil_iff.mp hnil).1).2
  unfold Url.authority
  rw [hhost]
  cases u.port with
  | some n =>
      refine hcut (":" ++ toString n) ?_
      rw [String.toList_append]
      exact Bare.append (by decide) (bare_toString n)
  | none => exact hcut "" bare_nil

/-- What is written of a URL without query. -/
theorem render (hhttp : u.scheme = "http") (hquery : u.query = none) :
    u.render.toList = "http://".toList
      ++ (u.authority.toList ++ (u.path.toList ++ u.writtenFragment)) := by
  obtain ⟨host, hhost, -⟩ := h.host
  unfold Url.render writtenFragment
  rw [hhttp, hhost, hquery]
  cases u.fragment with
  | some f => simp
  | none => simp

end IsWritten

end OnceProxy.Url
