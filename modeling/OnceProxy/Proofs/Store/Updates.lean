/-
No update is lost: what the in-memory store answers follows from its journal.

The store keeps the records that the journal shows to stand, the last write
to each key as long as it has not been purged, and nothing else
(`Accounts.standing`). Versions are counted over the whole store, so each is
given to one write, and a version that was ever shown with a key stands for
one value. A call changes the store in one of three ways (`Effect`); the
invariant is carried over each of them once, and the laws of the calls are
read off it.
-/
import Mathlib.Algebra.GroupWithZero.Nat
import Mathlib.Data.List.Induction
import Mathlib.Data.List.Nodup
import OnceProxy.Proofs.Store.Records
import OnceProxy.Store.Journal

namespace OnceProxy.Store

-- =============================================================== journals

section Standing

variable {past : List Receipt} {x : Receipt} {key : EntryKey} {r : Record}

/-- What one more call leaves standing. -/
theorem standing_concat :
    Standing (past ++ [x]) key r
      ↔ x.written? = some (key, r)
        ∨ Standing past key r ∧ (∀ r', x.written? ≠ some (key, r'))
          ∧ (x.call = .purge → x.now < r.expiresAt) := by
  constructor
  · rintro ⟨before, w, behind, hsplit, hw, hstays⟩
    -- the write that stands is the new call, or one that it comes after
    rcases List.eq_nil_or_concat behind with rfl | ⟨middle, y, rfl⟩
    · obtain ⟨-, hlast⟩ := List.append_inj' hsplit rfl
      obtain rfl := List.singleton_inj.mp hlast
      exact .inl hw
    · rw [List.concat_eq_append, ← List.cons_append,
        ← List.append_assoc] at hsplit
      obtain ⟨hpast, hlast⟩ := List.append_inj' hsplit rfl
      obtain rfl := List.singleton_inj.mp hlast
      refine .inr ⟨⟨before, w, middle, hpast, hw, fun y hy => ?_⟩,
        hstays x (by simp)⟩
      exact hstays y (by simp [hy])
  · rintro (hx | ⟨⟨before, w, behind, rfl, hw, hstays⟩, hx⟩)
    · exact ⟨past, x, [], rfl, hx, fun _ hy => absurd hy List.not_mem_nil⟩
    · refine ⟨before, w, behind ++ [x], by simp, hw, fun y hy => ?_⟩
      rcases List.mem_append.mp hy with hy | hy
      · exact hstays y hy
      · rw [List.mem_singleton.mp hy]
        exact hx

theorem not_standing_nil : ¬Standing [] key r := by
  rintro ⟨before, w, behind, hsplit, -, -⟩
  exact absurd hsplit (by simp)

end Standing

/-- The writes of a journal, each with its key. -/
def writes (journal : List Receipt) : List (EntryKey × Record) :=
  journal.filterMap Receipt.written?

theorem writes_concat (past : List Receipt) (x : Receipt) :
    writes (past ++ [x]) = writes past ++ x.written?.toList := by
  unfold writes
  rw [List.filterMap_append]
  cases h : x.written? <;> simp [h]

theorem mem_writes {journal : List Receipt} {p : EntryKey × Record} :
    p ∈ writes journal ↔ ∃ x ∈ journal, x.written? = some p :=
  List.mem_filterMap

/-- Versions that are consecutive numbers grow. -/
theorem increasing_of_consecutive {l : List (EntryKey × Record)}
    {first count : Nat}
    (h : l.map (·.2.version.toNat) = List.range' first count) :
    l.Pairwise fun p q => p.2.version < q.2.version := by
  have hpairs : List.Pairwise (· < ·) (l.map (·.2.version.toNat)) := by
    rw [h]
    exact List.pairwise_lt_range'
  exact (List.pairwise_map.mp hpairs).imp UInt64.lt_iff_toNat_lt.mpr

/-- Versions that are consecutive numbers are above the one before the
first. -/
theorem above_of_consecutive {l : List (EntryKey × Record)} {v : UInt64}
    {count : Nat} (h : l.map (·.2.version.toNat) = List.range' (v.toNat + 1) count)
    {p : EntryKey × Record} (hp : p ∈ l) : v < p.2.version := by
  have hnumber : p.2.version.toNat ∈ List.range' (v.toNat + 1) count := by
    rw [← h]
    exact List.mem_map_of_mem hp
  exact UInt64.lt_iff_toNat_lt.mpr (List.mem_range'_1.mp hnumber).1

/-- A value was shown with a key under a version. -/
def Shown (journal : List Receipt) (key : EntryKey) (v : Versioned) : Prop :=
  ∃ x ∈ journal, x.shown? = some (key, v)

namespace MemoryStore

theorem after_append (s : MemoryStore) (before behind : List (UInt64 × Call)) :
    s.after (before ++ behind) = (s.after before).after behind :=
  List.foldl_append

theorem journal_append (s : MemoryStore)
    (before behind : List (UInt64 × Call)) :
    s.journal (before ++ behind)
      = s.journal before ++ (s.after before).journal behind := by
  induction before generalizing s with
  | nil => rfl
  | cons y before ih => exact congrArg (_ :: ·) (ih _)

-- ================================================================ effects

/-- What a call does to the store. -/
inductive Effect (s : MemoryStore) (x : Receipt) : MemoryStore → Prop where
  /-- A query that writes nothing changes nothing. -/
  | read (query : ∃ q, x.call = .ask q) (idle : x.written? = none) :
      Effect s x s
  /-- A write puts its record under the next version. -/
  | wrote (key : EntryKey) (r : Record) (write : x.written? = some (key, r))
      (next : r.version = s.lastVersion + 1) :
      Effect s x (s.write key r.value r.expiresAt)
  | purged (purge : x.call = .purge) (idle : x.written? = none) :
      Effect s x (s.purge x.now)

/-- Every call has one of these effects, and shows only what the store holds
or what it has just written. -/
theorem serve_effect (s : MemoryStore) (now : UInt64) (c : Call) :
    Effect s ⟨now, c, (s.serve now c).1⟩ (s.serve now c).2
      ∧ ∀ key v, Receipt.shown? ⟨now, c, (s.serve now c).1⟩ = some (key, v) →
        ∃ r, r.versioned = v ∧ (s.find? key = some r
          ∨ Receipt.written? ⟨now, c, (s.serve now c).1⟩ = some (key, r)) := by
  cases c with
  | purge => exact ⟨.purged rfl rfl, nofun⟩
  | ask q =>
      cases q with
      | get k =>
          refine ⟨.read ⟨_, rfl⟩ rfl, fun key v h => ?_⟩
          show ∃ r, r.versioned = v ∧ (s.find? key = some r ∨ none = _)
          change Receipt.shown? ⟨now, .ask (.get k), s.get now k⟩
            = some (key, v) at h
          cases hget : s.get now k with
          | none =>
              rw [hget] at h
              cases h
          | some found =>
              rw [hget] at h
              cases h
              obtain ⟨r, hr, rfl⟩ := Option.map_eq_some_iff.mp hget
              exact ⟨r, rfl, .inl (Option.filter_eq_some_iff.mp hr).1⟩
      | put k value expiresAt =>
          dsimp only [serve, answer]
          rcases s.putIfAbsent_cases now k value expiresAt with
            ⟨-, hput⟩ | ⟨r, hr, -, hput⟩
          · rw [hput]
            refine ⟨.wrote k ⟨value, _, expiresAt⟩ rfl rfl, fun key v h => ?_⟩
            cases h
            exact ⟨_, rfl, .inr rfl⟩
          · rw [hput]
            refine ⟨.read ⟨_, rfl⟩ rfl, fun key v h => ?_⟩
            cases h
            exact ⟨r, rfl, .inl hr⟩
      | swap k version value expiresAt =>
          dsimp only [serve, answer]
          rcases s.compareAndSwap_cases k version value expiresAt with
            ⟨-, hswap⟩ | ⟨r, hr, -, hswap⟩
          · rw [hswap]
            exact ⟨.read ⟨_, rfl⟩ rfl, nofun⟩
          · rw [hswap]
            refine ⟨.wrote k ⟨value, _, expiresAt⟩ rfl rfl, fun key v h => ?_⟩
            cases h
            exact ⟨_, rfl, .inr rfl⟩

theorem Effect.distinct {s t : MemoryStore} {x : Receipt} (h : Effect s x t)
    (hs : s.Distinct) : t.Distinct := by
  cases h with
  | read => exact hs
  | wrote => exact distinct_write hs ..
  | purged => exact distinct_purge hs _

theorem distinct_after {s : MemoryStore} (hs : s.Distinct)
    (calls : List (UInt64 × Call)) : (s.after calls).Distinct := by
  induction calls generalizing s with
  | nil => exact hs
  | cons y calls ih => exact ih ((s.serve_effect y.1 y.2).1.distinct hs)

-- ============================================================ invariant

/-- The journal accounts for the records of the store. -/
structure Accounts (journal : List Receipt) (s : MemoryStore) : Prop where
  distinct : s.Distinct
  /-- The writes were given the versions from 1 on. -/
  versions : (writes journal).map (·.2.version.toNat)
    = List.range' 1 s.lastVersion.toNat
  /-- The records are what stands. -/
  standing : ∀ key r, s.find? key = some r ↔ Standing journal key r
  /-- Whatever was shown was written. -/
  shown : ∀ key v, Shown journal key v →
    ∃ r, (key, r) ∈ writes journal ∧ r.versioned = v

theorem accounts_empty : Accounts [] empty where
  distinct := distinct_empty
  versions := rfl
  standing _ _ := ⟨nofun, fun h => absurd h not_standing_nil⟩
  shown := by
    rintro key v ⟨x, hx, -⟩
    cases hx

namespace Accounts

variable {past : List Receipt} {s t : MemoryStore} {x : Receipt}

/-- The last version is the number of writes. -/
theorem lastVersion (h : Accounts past s) :
    s.lastVersion.toNat = (writes past).length := by
  have hlength := congrArg List.length h.versions
  rw [List.length_map, List.length_range'] at hlength
  exact hlength.symm

/-- As long as versions do not run out, the next one is the next number. -/
theorem next_version (h : Accounts past s)
    (few : (writes past).length + 1 < 2 ^ 64) :
    (s.lastVersion + 1).toNat = s.lastVersion.toNat + 1 := by
  have hlast := h.lastVersion
  rw [UInt64.toNat_add]
  exact Nat.mod_eq_of_lt (by
    rw [hlast]
    exact few)

/-- What one more call leaves to be accounted for, apart from what it
shows. -/
theorem records_step (h : Accounts past s) (effect : Effect s x t)
    (few : (writes (past ++ [x])).length < 2 ^ 64) :
    (writes (past ++ [x])).map (·.2.version.toNat)
      = List.range' 1 t.lastVersion.toNat
    ∧ ∀ key r, t.find? key = some r ↔ Standing (past ++ [x]) key r := by
  rw [writes_concat] at few ⊢
  cases effect with
  | read query idle =>
      rw [idle, Option.toList_none, List.append_nil]
      refine ⟨h.versions, fun key r => ?_⟩
      obtain ⟨q, hq⟩ := query
      rw [h.standing, standing_concat, idle, hq]
      simp
  | wrote k w write next =>
      rw [write, Option.toList_some] at few ⊢
      have hnext : w.version.toNat = s.lastVersion.toNat + 1 := by
        rw [next]
        exact h.next_version (by simpa using few)
      have hw : (⟨w.value, s.lastVersion + 1, w.expiresAt⟩ : Record) = w := by
        rw [← next]
      have hask : x.call ≠ .purge := by
        rcases x with ⟨now, _ | _, answer⟩
        · nofun
        · cases write
      refine ⟨?_, fun key r => ?_⟩
      · show _ = List.range' 1 (s.lastVersion + 1).toNat
        rw [← next, hnext, List.range'_concat, List.map_append, h.versions]
        simp [hnext, Nat.add_comm]
      · -- under its own key the new record stands in place of any other
        rw [find?_write, hw, standing_concat, ← h.standing, write]
        by_cases hk : key = k
        · subst hk
          simp [eq_comm]
        · simp [hk, Ne.symm hk, hask]
  | purged purge idle =>
      rw [idle, Option.toList_none, List.append_nil]
      refine ⟨h.versions, fun key r => ?_⟩
      rw [find?_purge h.distinct, Option.filter_eq_some_iff, h.standing,
        standing_concat, idle, Record.isLive_iff]
      simp [purge]

/-- One more call keeps the account. -/
theorem serve (h : Accounts past s) (now : UInt64) (c : Call)
    (few : (writes (past ++ [⟨now, c, (s.serve now c).1⟩])).length < 2 ^ 64) :
    Accounts (past ++ [⟨now, c, (s.serve now c).1⟩]) (s.serve now c).2 := by
  obtain ⟨effect, hshows⟩ := s.serve_effect now c
  obtain ⟨hversions, hstanding⟩ := h.records_step effect few
  refine ⟨effect.distinct h.distinct, hversions, hstanding, fun key v => ?_⟩
  rintro ⟨y, hy, hv⟩
  rw [writes_concat]
  rcases List.mem_append.mp hy with hy | hy
  · obtain ⟨r, hr, hrv⟩ := h.shown key v ⟨y, hy, hv⟩
    exact ⟨r, List.mem_append_left _ hr, hrv⟩
  · rw [List.mem_singleton.mp hy] at hv
    obtain ⟨r, hrv, hheld | hwrote⟩ := hshows key v hv
    · obtain ⟨before, w, behind, hpast, hw, -⟩ := (h.standing key r).mp hheld
      refine ⟨r, List.mem_append_left _ (mem_writes.mpr ⟨w, ?_, hw⟩), hrv⟩
      simp [hpast]
    · exact ⟨r, List.mem_append_right _ (by simp [hwrote]), hrv⟩

/-- A journal accounts for the store that its calls have left. -/
theorem run (calls : List (UInt64 × Call))
    (few : (writes (empty.journal calls)).length < 2 ^ 64) :
    Accounts (empty.journal calls) (empty.after calls) := by
  -- on the calls from the last one back, as an account grows at its end
  induction calls using List.reverseRecOn with
  | nil => exact accounts_empty
  | append_singleton calls y ih =>
      rw [journal_append] at few ⊢
      rw [after_append]
      refine (ih ?_).serve y.1 y.2 few
      rw [writes, List.filterMap_append, List.length_append] at few
      exact Nat.lt_of_le_of_lt (Nat.le_add_right ..) few

/-- Versions grow from write to write. -/
theorem increasing (h : Accounts past s) :
    (writes past).Pairwise fun p q => p.2.version < q.2.version :=
  increasing_of_consecutive h.versions

/-- A version stands for one write. -/
theorem write_unique (h : Accounts past s) {p q : EntryKey × Record}
    (hp : p ∈ writes past) (hq : q ∈ writes past)
    (hpq : p.2.version = q.2.version) : p = q := by
  have hnodup : ((writes past).map (·.2.version.toNat)).Nodup := by
    rw [h.versions]
    exact List.nodup_range'
  exact List.inj_on_of_nodup_map hnodup hp hq (congrArg UInt64.toNat hpq)

/-- A value that was shown under a version is the only one. -/
theorem shown_unique (h : Accounts past s) {key : EntryKey} {v v' : Versioned}
    (hv : Shown past key v) (hv' : Shown past key v')
    (same : v.version = v'.version) : v = v' := by
  obtain ⟨r, hr, rfl⟩ := h.shown key v hv
  obtain ⟨r', hr', rfl⟩ := h.shown key v' hv'
  cases h.write_unique hr hr' same
  rfl

/-- A swap is made if its version stands, and else changes nothing. -/
theorem swap_law (h : Accounts past s) (key : EntryKey) (version : UInt64)
    (value : Octets) (expiresAt : UInt64) :
    let done := s.compareAndSwap key version value expiresAt
    ((∃ next, done.1 = .swapped next)
      ↔ ∃ r, Standing past key r ∧ r.version = version)
    ∧ ((∃ r, Standing past key r ∧ r.version = version)
      ∨ done = (.mismatch, s)) := by
  simp only [← h.standing]
  rcases s.compareAndSwap_cases key version value expiresAt with
    ⟨hother, hswap⟩ | ⟨r, hr, hv, hswap⟩
  · rw [hswap]
    refine ⟨⟨nofun, ?_⟩, .inr rfl⟩
    rintro ⟨r, hr, hv⟩
    exact absurd hv (hother r hr)
  · rw [hswap]
    exact ⟨⟨fun _ => ⟨r, hr, hv⟩, fun _ => ⟨_, rfl⟩⟩, .inl ⟨r, hr, hv⟩⟩

end Accounts

-- ================================================================= calls

variable (s : MemoryStore)

/-- A put is made if the key has no live record, and else changes nothing. -/
theorem put_law (now : UInt64) (key : EntryKey) (value : Octets)
    (expiresAt : UInt64) :
    let done := s.putIfAbsent now key value expiresAt
    ((∃ version, done.1 = .stored version)
      ↔ ∀ r, s.find? key = some r → r.expiresAt ≤ now)
    ∧ ((∀ r, s.find? key = some r → r.expiresAt ≤ now)
      ∨ ∃ occupant, done = (.held occupant, s)) := by
  rcases s.putIfAbsent_cases now key value expiresAt with
    ⟨hdead, hput⟩ | ⟨r, hr, hlive, hput⟩
  · rw [hput]
    exact ⟨⟨fun _ => hdead, fun _ => ⟨_, rfl⟩⟩, .inl hdead⟩
  · rw [hput]
    refine ⟨⟨nofun, fun hdead => ?_⟩, .inr ⟨r.versioned, rfl⟩⟩
    exact absurd hlive (UInt64.not_lt.mpr (hdead r hr))

/-- A write puts its record under its key, and leaves the other keys alone. -/
theorem find?_serve {now : UInt64} {c : Call} {key : EntryKey} {r : Record}
    (h : Receipt.written? ⟨now, c, (s.serve now c).1⟩ = some (key, r))
    (k : EntryKey) :
    (s.serve now c).2.find? k = if k = key then some r else s.find? k := by
  obtain ⟨effect, -⟩ := s.serve_effect now c
  generalize (s.serve now c).2 = t at effect ⊢
  cases effect with
  | read _ idle | purged _ idle =>
      rw [h] at idle
      cases idle
  | wrote key' r' write next =>
      rw [h] at write
      cases write
      rw [find?_write, ← next]

-- =============================================================== history

/-- No update is lost. Over any calls to a new store, with fewer writes than
there are versions, versions grow from write to write, and a version that is
ever shown with a key stands for one value. A swap is made exactly if the
last write to its key is the one that was given its version and has not been
purged since; a put is made exactly if there is no record or an expired one.
A call that is refused leaves the store as it is, and a write changes its own
key only. -/
theorem no_lost_update (calls : List (UInt64 × Call))
    (few : (writes (empty.journal calls)).length < 2 ^ 64) :
    ((writes (empty.journal calls)).Pairwise
      fun p q => p.2.version < q.2.version)
    ∧ (∀ key v v', Shown (empty.journal calls) key v →
      Shown (empty.journal calls) key v' → v.version = v'.version → v = v')
    ∧ (∀ before now key version value expiresAt behind,
      calls = before
        ++ (now, .ask (.swap key version value expiresAt)) :: behind →
      let s := empty.after before
      let done := s.compareAndSwap key version value expiresAt
      ((∃ next, done.1 = .swapped next)
        ↔ ∃ r, Standing (empty.journal before) key r ∧ r.version = version)
      ∧ ((∃ r, Standing (empty.journal before) key r ∧ r.version = version)
        ∨ done = (.mismatch, s)))
    ∧ (∀ before now key value expiresAt behind,
      calls = before ++ (now, .ask (.put key value expiresAt)) :: behind →
      let s := empty.after before
      let done := s.putIfAbsent now key value expiresAt
      ((∃ version, done.1 = .stored version)
        ↔ ∀ r, s.find? key = some r → r.expiresAt ≤ now)
      ∧ ((∀ r, s.find? key = some r → r.expiresAt ≤ now)
        ∨ ∃ occupant, done = (.held occupant, s)))
    ∧ ∀ before now c behind, calls = before ++ (now, c) :: behind →
      let s := empty.after before
      let done := s.serve now c
      ∀ key r, Receipt.written? ⟨now, c, done.1⟩ = some (key, r) →
        ∀ k, done.2.find? k = if k = key then some r else s.find? k := by
  have haccounts := Accounts.run calls few
  refine ⟨haccounts.increasing, fun key v v' => haccounts.shown_unique,
    ?_, ?_, ?_⟩
  · rintro before now key version value expiresAt behind rfl
    rw [journal_append, writes, List.filterMap_append,
      List.length_append] at few
    have hbefore : (writes (empty.journal before)).length < 2 ^ 64 :=
      Nat.lt_of_le_of_lt (Nat.le_add_right ..) few
    exact (Accounts.run before hbefore).swap_law ..
  · intro before now key value expiresAt behind _
    exact put_law ..
  · intro before now c behind _ _ _ key r hwrite k
    exact find?_serve _ hwrite k

namespace Sample

open Store.Sample

/-- A record is replaced, purged and written anew; its old versions are
tried in between. -/
def updates : List (UInt64 × Call) :=
  [(100, .ask (.put key [1] 500)), (100, .ask (.put key [2] 900)),
    (200, .ask (.swap key 1 [3] 600)), (50, .ask (.swap key 1 [4] 600)),
    (600, .purge), (600, .ask (.swap key 2 [5] 900)),
    (600, .ask (.put key [6] 900)), (700, .ask (.swap key 2 [7] 900))]

end Sample

/-- The last swap comes with a version of the same key that was purged: it no
longer stands, though a record does. -/
theorem no_lost_update_purged :
    (writes (empty.journal Sample.updates)).length < 2 ^ 64
    ∧ Shown (empty.journal Sample.updates) Sample.key ⟨[3], 2⟩
    ∧ ¬∃ r, Standing (empty.journal (Sample.updates.take 7)) Sample.key r
      ∧ r.version = 2 := by
  have few : (writes (empty.journal Sample.updates)).length < 2 ^ 64 := by
    decide +kernel
  have hrefused : ((empty.after (Sample.updates.take 7)).compareAndSwap
      Sample.key 2 [7] 900).1 = .mismatch := by
    decide +kernel
  obtain ⟨-, -, hswaps, -⟩ := no_lost_update Sample.updates few
  have hlaw := (hswaps (Sample.updates.take 7) 700 Sample.key 2 [7] 900 []
    rfl).1
  refine ⟨few, ?_, fun hstanding => ?_⟩
  · unfold Shown
    decide +kernel
  · obtain ⟨next, hswapped⟩ := hlaw.mpr hstanding
    rw [hrefused] at hswapped
    cases hswapped

end MemoryStore

end OnceProxy.Store
