/-
Where calls lead.

The slashes at the end of a base URL are those at the end of what is behind
its authority (`stem`), since the authority is not empty and has none. A
call's URI is read from what is left with the path of the request behind it.
It gives back both where the base URL ends with its path: the place of the
base URL, and its path in front of the request's (`targetUri_ok`). A fragment
is never dropped as a whole, so it comes between the two, and the path of the
request is read as a part of it (`targetUri_of_fragment`).
-/
import Mathlib.Data.List.DropRight
import OnceProxy.Config.Validation
import OnceProxy.Origin.Target
import OnceProxy.Proofs.RequestPath
import OnceProxy.Proofs.Url.Written

namespace OnceProxy

-- =============================================================== targets

namespace Http.Uri

theorem requestTarget_of_slash {u : Uri}
    (h : u.target.toList.head? = some '/') : u.requestTarget = u.target := by
  unfold requestTarget
  split
  · next hnil =>
    rw [hnil] at h
    cases h
  · rfl
  · rfl
  · next hother _ =>
    cases htarget : u.target.toList with
    | nil =>
        rw [htarget] at h
        cases h
    | cons c cs =>
        rw [htarget] at h
        cases h
        exact absurd htarget (hother cs)

theorem hash_not_mem_pathAndQuery {s : String} {u : Uri}
    (h : parse s = .ok u) : '#' ∉ u.pathAndQuery.toList := by
  unfold pathAndQuery
  split
  · decide
  · exact hash_not_mem_target h

end Http.Uri

-- ============================================================= base URLs

/-- An accepted base URL is plain HTTP and has no query. -/
theorem ProxyConfig.exists_base {c : ProxyConfig} (h : c.problems = []) :
    ∃ base, Url.parse c.origin.baseUrl = .ok base ∧ base.scheme = "http"
      ∧ base.query = none := by
  have hbase : Config.checkBaseUrl "origin.base_url" c.origin.baseUrl = [] := by
    unfold ProxyConfig.problems at h
    simp only [List.append_eq_nil_iff] at h
    tauto
  unfold Config.checkBaseUrl at hbase
  split at hbase
  · cases hbase
  · next base hread =>
    split at hbase
    · cases hbase
    · next hhttp =>
      refine ⟨base, hread, Decidable.not_not.mp hhttp, ?_⟩
      unfold Config.check at hbase
      split at hbase
      · next hquery => exact Option.isNone_iff_eq_none.mp hquery
      · cases hbase

namespace Origin

open Http

-- ======================================================== final slashes

theorem toList_withoutFinalSlashes (s : String) :
    (withoutFinalSlashes s).toList = s.toList.rdropWhile (· = '/') := by
  unfold withoutFinalSlashes
  rw [String.toList_ofList]
  rfl

theorem withoutFinalSlashes_front (s : String) :
    (withoutFinalSlashes s).toList <+: s.toList := by
  rw [toList_withoutFinalSlashes]
  exact List.rdropWhile_prefix _ _

/-- Only what is behind the last other character is dropped. -/
theorem withoutFinalSlashes_append {s : String} {front behind : List Char}
    (hs : s.toList = front ++ behind) (hne : front ≠ [])
    (hlast : front.getLast hne ≠ '/') :
    (withoutFinalSlashes s).toList
      = front ++ (withoutFinalSlashes (String.ofList behind)).toList := by
  have hfront : front.reverse.dropWhile (· = '/') = front.reverse := by
    have hkeep : front.rdropWhile (· = '/') = front :=
      List.rdropWhile_eq_self_iff.mpr fun _ => by simpa using hlast
    exact List.reverse_eq_iff.mp hkeep
  unfold withoutFinalSlashes
  rw [String.toList_ofList, String.toList_ofList, String.toList_ofList, hs,
    List.reverse_append, List.dropWhile_append, hfront]
  split
  · next hempty =>
    rw [List.isEmpty_iff.mp hempty]
    simp
  · rw [List.reverse_append, List.reverse_reverse]

-- ================================================================= calls

/-- What a base URL has behind its authority, less the slashes at the end. -/
def stem (base : Url) : List Char :=
  (withoutFinalSlashes
    (String.ofList (base.path.toList ++ base.writtenFragment))).toList

theorem stem_of_path {base : Url} (hfragment : base.fragment = none) :
    stem base = (withoutFinalSlashes base.path).toList := by
  unfold stem Url.writtenFragment
  rw [hfragment, List.append_nil, String.ofList_toList]

/-- The mark of a fragment is no slash, and keeps all in front of it. -/
theorem stem_of_fragment {base : Url} {f : String}
    (hfragment : base.fragment = some f) :
    ∃ rest, stem base = base.path.toList ++ '#' :: rest := by
  have hsplit : (String.ofList
      (base.path.toList ++ base.writtenFragment)).toList
      = (base.path.toList ++ ['#']) ++ f.toList := by
    unfold Url.writtenFragment
    rw [String.toList_ofList, hfragment, List.append_assoc]
    rfl
  refine ⟨(withoutFinalSlashes (String.ofList f.toList)).toList, ?_⟩
  unfold stem
  rw [withoutFinalSlashes_append hsplit (List.append_ne_nil_of_right_ne_nil _
    (List.cons_ne_nil _ _)) (by simp), List.append_assoc]
  rfl

section Call

variable {base : Url} (hwritten : base.IsWritten)

include hwritten

/-- The path of a base URL, if it leaves anything in front of another, begins
with a slash like that. -/
theorem head?_stem_append {path : List Char} (hslash : path.head? = some '/') :
    (stem base ++ path).head? = some '/' := by
  have hfront := withoutFinalSlashes_front
    (String.ofList (base.path.toList ++ base.writtenFragment))
  cases hleft : stem base with
  | nil => exact hslash
  | cons c rest =>
      obtain ⟨behind, hbehind⟩ := hfront
      rw [← stem, hleft, String.toList_ofList] at hbehind
      have hhead := hwritten.path_slash
      cases hpath : base.path.toList with
      | nil =>
          rw [hpath] at hhead
          cases hhead
      | cons d rest =>
          rw [hpath] at hbehind hhead
          exact (congrArg List.head? hbehind).trans hhead

theorem hash_not_mem_path : '#' ∉ base.path.toList := by
  intro hmem
  exact (hwritten.path _ hmem).2 rfl

variable (hhttp : base.scheme = "http") (hquery : base.query = none)

include hhttp hquery

/-- The authority has no slash at its end, so nothing of it is lost. -/
theorem toList_withoutFinalSlashes_render :
    (withoutFinalSlashes base.render).toList
      = "http://".toList ++ (base.authority.toList ++ stem base) := by
  obtain ⟨hne, hbare⟩ := hwritten.authority
  have hrender := hwritten.render hhttp hquery
  rw [← List.append_assoc] at hrender
  have hlast : ("http://".toList ++ base.authority.toList).getLast
      (List.append_ne_nil_of_right_ne_nil _ hne) ≠ '/' := by
    rw [List.getLast_append_of_ne_nil _ hne]
    intro heq
    exact hbare _ (List.getLast_mem hne) (.inl heq)
  rw [withoutFinalSlashes_append hrender _ hlast, stem, List.append_assoc]

/-- The URI of a call leads to the place of the base URL; its target goes up
to a fragment. -/
theorem targetUri_eq {path : String} {u : Uri}
    (hslash : path.toList.head? = some '/')
    (h : targetUri base path = .ok u) :
    u = ⟨some "http", base.authority,
      String.ofList ((stem base ++ path.toList).takeWhile (· ≠ '#'))⟩ := by
  have hparts : (withoutFinalSlashes base.render ++ path).toList
      = "http://".toList ++ (base.authority.toList
        ++ (stem base ++ path.toList)) := by
    rw [String.toList_append,
      toList_withoutFinalSlashes_render hwritten hhttp hquery]
    simp only [List.append_assoc]
  have hdelimiter : ∀ c ∈ (stem base ++ path.toList).head?,
      Uri.IsDelimiter c := by
    intro c hc
    rw [head?_stem_append hwritten hslash] at hc
    cases hc
    exact .inl rfl
  obtain rfl := Uri.parse_http hparts hwritten.authority.2 hdelimiter h
  rw [String.ofList_toList]

/-- Without a fragment the target is the path of the base URL with the
request's path behind it. -/
theorem targetUri_ok (hfragment : base.fragment = none) {path : String}
    {u : Uri} (hslash : path.toList.head? = some '/')
    (hhash : '#' ∉ path.toList) (h : targetUri base path = .ok u) :
    u = ⟨some "http", base.authority,
      withoutFinalSlashes base.path ++ path⟩ := by
  have hall : (stem base ++ path.toList).takeWhile (· ≠ '#')
      = (withoutFinalSlashes base.path ++ path).toList := by
    rw [stem_of_path hfragment, ← String.toList_append,
      List.takeWhile_eq_self_iff]
    intro c hc
    rw [decide_eq_true_eq]
    rintro rfl
    rw [String.toList_append] at hc
    rcases List.mem_append.mp hc with hc | hc
    · exact hash_not_mem_path hwritten
        ((withoutFinalSlashes_front base.path).subset hc)
    · exact hhash hc
  rw [targetUri_eq hwritten hhttp hquery hslash h, hall, String.ofList_toList]

/-- With a fragment the target is the path of the base URL, whatever the
request's path. -/
theorem targetUri_of_fragment {f : String} (hfragment : base.fragment = some f)
    {path : String} {u : Uri} (hslash : path.toList.head? = some '/')
    (h : targetUri base path = .ok u) :
    u = ⟨some "http", base.authority, base.path⟩ := by
  obtain ⟨rest, hstem⟩ := stem_of_fragment hfragment
  have hfront : ∀ c ∈ base.path.toList, decide (c ≠ '#') = true := by
    intro c hc
    rw [decide_eq_true_eq]
    rintro rfl
    exact hash_not_mem_path hwritten hc
  have hcut : (stem base ++ path.toList).takeWhile (· ≠ '#')
      = base.path.toList := by
    rw [hstem, List.append_assoc, List.takeWhile_append_of_pos hfront]
    simp
  rw [targetUri_eq hwritten hhttp hquery hslash h, hcut, String.ofList_toList]

end Call

-- ============================================================ the theorem

/-- A path and query that a request can have. -/
structure IsPathAndQuery (path : String) : Prop where
  slash : path.toList.head? = some '/'
  bare : '#' ∉ path.toList

/-- The URI of a call for this path under a base URL has the place of the base
URL, and as its path and query the path of the base URL without the slashes
at its end, and then this path as it is. -/
structure LeadsTo (base : Url) (path : String) (u : Uri) : Prop where
  scheme : u.scheme = some "http"
  authority : u.authority = base.authority
  target : u.target.toList
    = base.path.toList.rdropWhile (· = '/') ++ path.toList

/-- Requests go where the base URL says. Every configuration without problems
has a base URL, and where that has no fragment, a call for any path leads to
the place of the base URL and to this path below its own; so calls for two
paths never have one URI. Where it has a fragment, which is no problem
either, the calls for all paths lead to the path of the base URL itself. -/
theorem calls_lead_to_base {c : ProxyConfig} (haccepted : c.problems = []) :
    ∃ base, Url.parse c.origin.baseUrl = .ok base
      ∧ (base.fragment = none →
        (∀ path u, IsPathAndQuery path → targetUri base path = .ok u →
          LeadsTo base path u)
        ∧ ∀ path path' u, IsPathAndQuery path → IsPathAndQuery path' →
          targetUri base path = .ok u → targetUri base path' = .ok u →
          path = path')
      ∧ ∀ f, base.fragment = some f → ∀ path u, IsPathAndQuery path →
        targetUri base path = .ok u →
        u = ⟨some "http", base.authority, base.path⟩ := by
  obtain ⟨base, hbase, hhttp, hquery⟩ := ProxyConfig.exists_base haccepted
  have hwritten := Url.parse_isWritten hbase hhttp
  refine ⟨base, hbase, fun hnone => ?_, ?_⟩
  · have hleads : ∀ path u, IsPathAndQuery path →
        targetUri base path = .ok u → LeadsTo base path u := by
      intro path u hpath hu
      rw [targetUri_ok hwritten hhttp hquery hnone hpath.slash hpath.bare hu]
      refine ⟨rfl, rfl, ?_⟩
      dsimp only
      rw [String.toList_append, toList_withoutFinalSlashes]
    refine ⟨hleads, fun path path' u hpath hpath' hu hu' => ?_⟩
    have htarget := (hleads path u hpath hu).target
    rw [(hleads path' u hpath' hu').target] at htarget
    exact String.toList_injective (List.append_cancel_left htarget).symm
  · intro f hf path u hpath hu
    exact targetUri_of_fragment hwritten hhttp hquery hf hpath.slash hu

/-- An origin under a path that is written with slashes at its end. -/
def underSlashes : ProxyConfig :=
  { origin := { baseUrl := "http://user@127.0.0.1:3000/api/v1//" } }

/-- Its calls lead below that path, which keeps its other slash. -/
theorem calls_lead_to_base_underSlashes :
    ∃ base u, Url.parse underSlashes.origin.baseUrl = .ok base
      ∧ targetUri base "/orders?n=1" = .ok u ∧ LeadsTo base "/orders?n=1" u
      ∧ u.authority = "user@127.0.0.1:3000" ∧ u.target = "/api/v1/orders?n=1" := by
  have hread : Url.parse underSlashes.origin.baseUrl = .ok ⟨"http", "user",
      some "127.0.0.1", some 3000, "/api/v1//", none, none⟩ := by
    decide +kernel
  obtain ⟨base, hbase, hplain, -⟩ :=
    calls_lead_to_base (c := underSlashes) (by decide +kernel)
  rw [hread] at hbase
  cases hbase
  have hu : targetUri ⟨"http", "user", some "127.0.0.1", some 3000, "/api/v1//",
      none, none⟩ "/orders?n=1"
      = .ok ⟨some "http", "user@127.0.0.1:3000", "/api/v1/orders?n=1"⟩ := by
    decide +kernel
  exact ⟨_, _, hread, hu, (hplain rfl).1 _ _ ⟨rfl, by decide⟩ hu, rfl, rfl⟩

/-- The same place, with a fragment behind its path. -/
def underFragment : ProxyConfig :=
  { origin := { baseUrl := "http://127.0.0.1:3000/api#v1" } }

/-- Nothing is wrong with that configuration, and calls for two paths have one
URI, which leads to neither. -/
theorem calls_may_lead_elsewhere : underFragment.problems = []
    ∧ ∃ base u, Url.parse underFragment.origin.baseUrl = .ok base
      ∧ IsPathAndQuery "/payments" ∧ targetUri base "/payments" = .ok u
      ∧ IsPathAndQuery "/refunds" ∧ targetUri base "/refunds" = .ok u
      ∧ u.target = "/api" ∧ ¬LeadsTo base "/payments" u := by
  have hread : Url.parse underFragment.origin.baseUrl = .ok ⟨"http", "",
      some "127.0.0.1", some 3000, "/api", none, some "v1"⟩ := by
    decide +kernel
  refine ⟨by decide +kernel, _, ⟨some "http", "127.0.0.1:3000", "/api"⟩, hread,
    ⟨rfl, by decide⟩, by decide +kernel, ⟨rfl, by decide⟩, by decide +kernel,
    rfl, fun hleads => ?_⟩
  have htarget := hleads.target
  revert htarget
  decide +kernel

end Origin

end OnceProxy
