/-
The cache over the in-memory store is the expiring map.

The store is read as a map by decoding its records (`toMap`). Every
operation does to that map, and answers, what the map does of itself
(`WellStored.serve`); the stored form read back and the two tests of the
expiry, that of the record and that of the entry, enter there and nowhere
else. A purge changes the map, since it drops what has expired, but nothing
that can be seen of it: maps that show the same entries at an instant answer
alike from then on (`Agree.serve`). The two together carry over to whole
schedules by induction (`carryOut_serve`).
-/
import OnceProxy.Proofs.Store.Changes
import OnceProxy.Store.ExpiringMap

namespace OnceProxy.Store

open MemoryStore

-- ========================================================= what is visible

namespace ExpiringMap

variable {now : UInt64} {m n : ExpiringMap}

theorem present?_eq_some {key : EntryKey} {x : Entry × Nat} :
    m.present? now key = some x
      ↔ m.entries key = some x ∧ now < x.1.expiresAt := by
  unfold present?
  rw [Option.filter_eq_some_iff, decide_eq_true_eq]

theorem present?_set (key k : EntryKey) (e : Entry) :
    (m.set key e).present? now k
      = if k = key then
          if now < e.expiresAt then some (e, m.lastVersion + 1) else none
        else m.present? now k := by
  unfold present? set
  by_cases hk : k = key
  · simp [hk, Option.filter_some]
  · simp [hk]

/-- Two maps that nobody can tell apart from an instant on. -/
structure Agree (now : UInt64) (m n : ExpiringMap) : Prop where
  versions : m.lastVersion = n.lastVersion
  present : ∀ k, m.present? now k = n.present? now k

namespace Agree

theorem refl (m : ExpiringMap) : Agree now m m := ⟨rfl, fun _ => rfl⟩

theorem trans {l : ExpiringMap} (hlm : Agree now l m) (hmn : Agree now m n) :
    Agree now l n :=
  ⟨hlm.versions.trans hmn.versions,
    fun k => (hlm.present k).trans (hmn.present k)⟩

/-- What is present later is present now. -/
theorem later (h : Agree now m n) {after : UInt64} (hle : now ≤ after) :
    Agree after m n := by
  refine ⟨h.versions, fun k => Option.ext fun x => ?_⟩
  have hnow : m.present? now k = some x ↔ n.present? now k = some x := by
    rw [h.present k]
  rw [present?_eq_some, present?_eq_some] at hnow ⊢
  constructor
  · rintro ⟨hx, hlive⟩
    have hboth := hnow.mp ⟨hx, UInt64.lt_of_le_of_lt hle hlive⟩
    exact ⟨hboth.1, hlive⟩
  · rintro ⟨hx, hlive⟩
    have hboth := hnow.mpr ⟨hx, UInt64.lt_of_le_of_lt hle hlive⟩
    exact ⟨hboth.1, hlive⟩

theorem set (h : Agree now m n) (key : EntryKey) (e : Entry) :
    Agree now (m.set key e) (n.set key e) := by
  refine ⟨congrArg (· + 1) h.versions, fun k => ?_⟩
  rw [present?_set, present?_set, h.versions, h.present]

/-- Neither an answer nor what is present afterwards tells them apart. -/
theorem serve (h : Agree now m n) (c : Command) :
    (m.serve now c).1 = (n.serve now c).1
      ∧ Agree now (m.serve now c).2 (n.serve now c).2 := by
  cases c with
  | sweep => exact ⟨rfl, h⟩
  | perform o =>
      show (m.perform now o).1 = (n.perform now o).1
        ∧ Agree now (m.perform now o).2 (n.perform now o).2
      unfold perform
      rw [h.present]
      split
      · exact ⟨rfl, h⟩
      · exact ⟨rfl, h.set ..⟩

end Agree

-- ================================================================ writes

/-- Versions are given out in order, and one at a time. -/
theorem lastVersion_serve (now : UInt64) (c : Command) (m : ExpiringMap) :
    (m.serve now c).2.lastVersion = m.lastVersion
      ∨ (m.serve now c).2.lastVersion = m.lastVersion + 1 := by
  cases c with
  | sweep => exact .inl rfl
  | perform o =>
      show (m.perform now o).2.lastVersion = _
        ∨ (m.perform now o).2.lastVersion = _
      unfold perform
      split
      · exact .inl rfl
      · exact .inr rfl

/-- Only a swap that would change a result fails. -/
theorem respond_error {present : Option (Entry × Nat)} {o : Operation}
    {error : StoreError} (h : (respond now present o).1 = .error error) :
    error = .resultChanged := by
  cases o with
  | get key | getVersioned key => cases h
  | putIfAbsent key e | refresh key duration =>
      cases present <;> cases h
  | compareAndSwap key version e =>
      cases present with
      | none => cases h
      | some x =>
          unfold respond at h
          dsimp only at h
          split at h
          · cases h
          · split at h
            · cases h
              rfl
            · cases h

end ExpiringMap

-- ========================================================= the store's map

namespace MemoryStore

/-- The entry and the version behind a record. -/
def toMap (s : MemoryStore) : ExpiringMap where
  entries k := (s.find? k).bind fun r =>
    (Entry.decode r.value).toOption.map fun e => (e, r.version.toNat)
  lastVersion := s.lastVersion.toNat

variable {s : MemoryStore} {now : UInt64} {key : EntryKey}

theorem entries_toMap (s : MemoryStore) (key : EntryKey) :
    s.toMap.entries key = (s.find? key).bind fun r =>
      (Entry.decode r.value).toOption.map fun e => (e, r.version.toNat) :=
  rfl

/-- What is present in the map is live in the store. -/
theorem map_present?_toMap (s : MemoryStore) (now : UInt64)
    (key : EntryKey) :
    (s.toMap.present? now key).map (·.1) = s.live? now key := by
  have hheld : (s.toMap.entries key).map (·.1) = s.held? key := by
    rw [entries_toMap, held?]
    cases s.find? key with
    | none => rfl
    | some r => cases hr : Entry.decode r.value <;> simp [hr, Except.toOption]
  rw [live?, ← hheld, Option.filter_map]
  simp only [ExpiringMap.present?, Function.comp_def, not_isExpiredAt]

theorem present?_toMap_none (h : s.live? now key = none) :
    s.toMap.present? now key = none := by
  rw [← map_present?_toMap, Option.map_eq_none_iff] at h
  exact h

theorem present?_toMap_some {r : Record} {e : Entry}
    (he : s.live? now key = some e) (hr : s.find? key = some r) :
    s.toMap.present? now key = some (e, r.version.toNat) := by
  rw [← map_present?_toMap] at he
  obtain ⟨⟨f, v⟩, hpresent, rfl⟩ := Option.map_eq_some_iff.mp he
  obtain ⟨hentry, -⟩ := ExpiringMap.present?_eq_some.mp hpresent
  rw [entries_toMap, hr, Option.bind_some] at hentry
  obtain ⟨g, -, hg⟩ := Option.map_eq_some_iff.mp hentry
  cases hg
  exact hpresent

/-- Writing an entry sets it, as long as there is a version for it. -/
theorem toMap_writeEntry {e : Entry} (he : e.Fits) (key : EntryKey)
    (room : s.toMap.lastVersion + 1 < 2 ^ 64) :
    (s.writeEntry key e).toMap = s.toMap.set key e := by
  have hversion : (s.lastVersion + 1).toNat = s.toMap.lastVersion + 1 := by
    rw [UInt64.toNat_add]
    exact Nat.mod_eq_of_lt room
  unfold ExpiringMap.set
  rw [← hversion]
  refine congrArg (ExpiringMap.mk · _) (funext fun k => ?_)
  rw [entries_toMap, writeEntry, find?_write]
  by_cases hk : k = key
  · rw [if_pos hk, if_pos hk, Option.bind_some, Entry.decode_encode he]
    rfl
  · rw [if_neg hk, if_neg hk]

/-- Nobody sees a purge. -/
theorem WellStored.agree_purge (h : s.WellStored) (now : UInt64) :
    ExpiringMap.Agree now (s.purge now).toMap s.toMap := by
  refine ⟨rfl, fun k => ?_⟩
  cases he : s.live? now k with
  | none =>
      rw [present?_toMap_none he]
      refine present?_toMap_none ?_
      rw [live?, h.held?_purge, he]
      rfl
  | some e =>
      obtain ⟨r, hr, hre, hfind⟩ := h.filter_isLive_eq_some he
      rw [present?_toMap_some he hfind]
      refine present?_toMap_some ?_ ?_
      · rw [live?_eq_some, h.held?_purge]
        exact ⟨he, (live?_eq_some.mp he).2⟩
      · rw [find?_purge h.distinct, hr]

end MemoryStore

-- ============================================================ operations

namespace Cache

open Dialogue

variable {s : MemoryStore}

/-- Swapping an entry that is not live. -/
theorem run_compareAndSwap_none (h : s.WellStored) {now : UInt64}
    {key : EntryKey} (hnone : s.live? now key = none) (version : UInt64)
    (e : Entry) (m : Metrics) :
    (compareAndSwap key version e).run backend now (s, m)
      = (.ok .mismatch, (s, m)) := by
  unfold compareAndSwap
  rw [run_bind, run_getVersioned_none h hnone]
  rfl

/-- Swapping a live entry. -/
theorem run_compareAndSwap_some (h : s.WellStored) {now : UInt64}
    {key : EntryKey} {f : Entry} (hsome : s.live? now key = some f)
    {r : Record} (hr : s.find? key = some r) (version : UInt64) (e : Entry)
    (m : Metrics) :
    (compareAndSwap key version e).run backend now (s, m)
      = if r.version ≠ version then (.ok .mismatch, (s, m))
        else if !f.sameResult e then (.error .resultChanged, (s, m))
        else (.ok .swapped, (s.writeEntry key e, m)) := by
  obtain ⟨r', hr', -, hrun⟩ := run_getVersioned_some h hsome m
  rw [hr] at hr'
  cases hr'
  unfold compareAndSwap
  rw [run_bind, hrun]
  dsimp only
  split
  · rfl
  · next hversion =>
    rw [ne_eq, not_not] at hversion
    split
    · rfl
    · unfold swap
      rw [run_bind, run_query_swap, ← hversion, compareAndSwap_find? hr]
      rfl

end Cache

-- ================================================================= a step

/-- The entries that a command brings fit into memory, and its duration into
64 bits. -/
def Command.Fits : Command → Prop
  | .perform (.putIfAbsent _ e) | .perform (.compareAndSwap _ _ e) => e.Fits
  | .perform (.refresh _ duration) => duration < 2 ^ 64
  | _ => True

namespace MemoryStore

/-- The store with an entry written, if there is one to write. -/
def writeAny (s : MemoryStore) (key : EntryKey) : Option Entry → MemoryStore
  | none => s
  | some e => s.writeEntry key e

variable {s : MemoryStore} {now : UInt64}

/-- What a refresh does to a live entry. -/
theorem respond_refresh {duration : Nat}
    (hfits : duration < 2 ^ 64) (key : EntryKey) (e : Entry) (v : Nat) :
    ExpiringMap.respond now (some (e, v)) (.refresh key duration)
      = (.ok (some .swapped),
          if extension now duration ≤ e.expiresAt then none
          else some (e.withExpiry (extension now duration))) := by
  have hextension :
      saturate (now.toNat + duration) = extension now duration := by
    rw [extension, addSaturating_eq, millis, UInt64.toNat_ofNat',
      Nat.mod_eq_of_lt hfits]
  dsimp only [ExpiringMap.respond]
  rw [hextension]
  have hmax : max e.expiresAt (extension now duration)
      = if extension now duration ≤ e.expiresAt then e.expiresAt
        else extension now duration := by
    show (if e.expiresAt ≤ extension now duration then _ else _) = _
    split
    · next hge =>
      split
      · next hle => exact UInt64.le_antisymm hle hge
      · rfl
    · next hlt =>
      rw [if_pos (UInt64.le_of_lt (UInt64.not_le.mp hlt))]
  rw [hmax]
  by_cases hle : extension now duration ≤ e.expiresAt
  · rw [if_pos hle, if_pos hle, if_neg (UInt64.lt_irrefl _)]
  · rw [if_neg hle, if_neg hle, if_pos (UInt64.not_le.mp hle)]

/-- Every operation answers as the map says, and writes what the map sets. -/
theorem WellStored.run_dialogue (h : s.WellStored) {o : Operation}
    (fits : (Command.perform o).Fits) (m : Metrics) :
    ∃ m', o.dialogue.run backend now (s, m)
      = ((ExpiringMap.respond now (s.toMap.present? now o.key) o).1,
          (s.writeAny o.key
            (ExpiringMap.respond now (s.toMap.present? now o.key) o).2, m')) := by
  cases hlive : s.live? now o.key with
  | none =>
      rw [present?_toMap_none hlive]
      cases o with
      | get key =>
          have hrun := Cache.run_get h now key m
          rw [show s.live? now key = none from hlive] at hrun
          exact ⟨_, hrun⟩
      | getVersioned key =>
          exact ⟨_, Cache.run_getVersioned_none h hlive m⟩
      | putIfAbsent key e =>
          have hrun := Cache.run_putIfAbsent h now key e m
          unfold insert at hrun
          rw [show s.live? now key = none from hlive] at hrun
          exact ⟨_, hrun⟩
      | compareAndSwap key version e =>
          exact ⟨_, Cache.run_compareAndSwap_none h hlive version e m⟩
      | refresh key duration =>
          have hrun := Cache.run_refresh h now key duration m
          unfold extend at hrun
          rw [show s.live? now key = none from hlive] at hrun
          exact ⟨_, hrun⟩
  | some f =>
      obtain ⟨r, -, -, hr⟩ := h.filter_isLive_eq_some hlive
      rw [present?_toMap_some hlive hr]
      cases o with
      | get key =>
          have hrun := Cache.run_get h now key m
          rw [show s.live? now key = some f from hlive] at hrun
          exact ⟨_, hrun⟩
      | getVersioned key =>
          obtain ⟨r', hr', -, hrun⟩ := Cache.run_getVersioned_some h hlive m
          rw [hr] at hr'
          cases hr'
          dsimp only [ExpiringMap.respond]
          rw [Option.map_some, UInt64.ofNat_toNat]
          exact ⟨_, hrun⟩
      | putIfAbsent key e =>
          have hrun := Cache.run_putIfAbsent h now key e m
          unfold insert at hrun
          rw [show s.live? now key = some f from hlive] at hrun
          exact ⟨_, hrun⟩
      | compareAndSwap key version e =>
          refine ⟨m, (Cache.run_compareAndSwap_some h hlive hr version e m).trans
            ?_⟩
          dsimp only [ExpiringMap.respond]
          simp only [ne_eq, UInt64.toNat_inj]
          split
          · rfl
          · split <;> rfl
      | refresh key duration =>
          rw [respond_refresh fits]
          have hrun := Cache.run_refresh h now key duration m
          unfold extend at hrun
          rw [show s.live? now key = some f from hlive] at hrun
          refine ⟨m, hrun.trans ?_⟩
          dsimp only
          split <;> rfl

/-- What the map sets fits into memory. -/
theorem WellStored.fits_respond (h : s.WellStored) {o : Operation}
    (fits : (Command.perform o).Fits) {e : Entry}
    (he : (ExpiringMap.respond now (s.toMap.present? now o.key) o).2 = some e) :
    e.Fits := by
  have hlive := map_present?_toMap s now o.key
  generalize s.toMap.present? now o.key = present at he hlive
  cases o with
  | get key | getVersioned key => cases he
  | putIfAbsent key f =>
      cases present with
      | none =>
          cases he
          exact fits
      | some x => cases he
  | compareAndSwap key version f =>
      cases present with
      | none => cases he
      | some x =>
          dsimp only [ExpiringMap.respond] at he
          split at he
          · cases he
          · split at he
            · cases he
            · cases he
              exact fits
  | refresh key duration =>
      cases present with
      | none => cases he
      | some x =>
          have hx := h.fits (live?_eq_some.mp hlive.symm).1
          rw [respond_refresh fits] at he
          dsimp only at he
          split at he
          · cases he
          · cases he
            exact hx.withExpiry _

/-- The step lemma: whatever is asked of a store of entries, it answers as
its map, and is that map afterwards to all who can only ask. -/
theorem WellStored.serve (h : s.WellStored) {c : Command} (fits : c.Fits)
    (room : (s.toMap.serve now c).2.lastVersion < 2 ^ 64) (m : Metrics) :
    ∃ t m', Cache.serve now c (s, m)
        = ((s.toMap.serve now c).1, (t, m'))
      ∧ t.WellStored ∧ ExpiringMap.Agree now t.toMap (s.toMap.serve now c).2 := by
  cases c with
  | sweep => exact ⟨s.purge now, _, rfl, h.purge now, h.agree_purge now⟩
  | perform o =>
      obtain ⟨m', hrun⟩ := @WellStored.run_dialogue s now h o fits m
      show ∃ t m', o.dialogue.run backend now (s, m)
          = ((s.toMap.perform now o).1, (t, m'))
        ∧ t.WellStored ∧ ExpiringMap.Agree now t.toMap (s.toMap.perform now o).2
      replace room : (s.toMap.perform now o).2.lastVersion < 2 ^ 64 := room
      have hfits : ∀ e, (ExpiringMap.respond now
          (s.toMap.present? now o.key) o).2 = some e → e.Fits :=
        fun _ he => h.fits_respond fits he
      rw [hrun]
      unfold ExpiringMap.perform at room ⊢
      cases hrespond :
          ExpiringMap.respond now (s.toMap.present? now o.key) o with
      | mk x written =>
          rw [hrespond] at room hfits
          cases written with
          | none => exact ⟨s, m', rfl, h, .refl _⟩
          | some e =>
              have he := hfits e rfl
              refine ⟨_, m', rfl, h.writeEntry o.key he, ?_⟩
              show ExpiringMap.Agree now (s.writeEntry o.key e).toMap _
              rw [toMap_writeEntry he o.key room]
              exact .refl _

end MemoryStore

-- ============================================================= schedules

/-- Versions never go back. -/
theorem ExpiringMap.lastVersion_le_carryOut
    (schedule : List (UInt64 × Command)) (m : ExpiringMap) :
    m.lastVersion ≤ (carryOut ExpiringMap.serve schedule m).2.lastVersion := by
  induction schedule generalizing m with
  | nil => exact Nat.le_refl _
  | cons x schedule ih =>
      obtain ⟨now, c⟩ := x
      have hrest := ih (m.serve now c).2
      show _ ≤ (carryOut ExpiringMap.serve schedule
        (m.serve now c).2).2.lastVersion
      rcases m.lastVersion_serve now c with h | h <;> omega

/-- A version is taken for a command or none is. -/
theorem ExpiringMap.lastVersion_carryOut_le
    (schedule : List (UInt64 × Command)) (m : ExpiringMap) :
    (carryOut ExpiringMap.serve schedule m).2.lastVersion
      ≤ m.lastVersion + schedule.length := by
  induction schedule generalizing m with
  | nil => exact Nat.le_refl _
  | cons x schedule ih =>
      obtain ⟨now, c⟩ := x
      have hrest := ih (m.serve now c).2
      show (carryOut ExpiringMap.serve schedule
        (m.serve now c).2).2.lastVersion ≤ _
      rw [List.length_cons]
      rcases m.lastVersion_serve now c with h | h <;> omega

/-- What is answered in a schedule is answered in some state. -/
theorem mem_carryOut
    {serve : UInt64 → (c : Command) → σ → c.Result × σ} {c : Command}
    {x : c.Result} {schedule : List (UInt64 × Command)} {s : σ}
    (h : ⟨c, x⟩ ∈ (carryOut serve schedule s).1) :
    ∃ now t, x = (serve now c t).1 := by
  induction schedule generalizing s with
  | nil => cases h
  | cons y schedule ih =>
      obtain ⟨now, d⟩ := y
      rcases List.mem_cons.mp h with hfirst | hrest
      · cases hfirst
        exact ⟨now, s, rfl⟩
      · exact ih hrest

/-- The store and a map it cannot be told from answer a schedule alike. -/
theorem MemoryStore.WellStored.carryOut_serve {s : MemoryStore}
    {m : ExpiringMap} {start : UInt64} {schedule : List (UInt64 × Command)}
    (h : s.WellStored) (hagree : ExpiringMap.Agree start s.toMap m)
    (inOrder : (start :: schedule.map (·.1)).Pairwise (· ≤ ·))
    (fits : ∀ x ∈ schedule, x.2.Fits)
    (few : (carryOut ExpiringMap.serve schedule m).2.lastVersion < 2 ^ 64)
    (metrics : Metrics) :
    (carryOut Cache.serve schedule (s, metrics)).1
      = (carryOut ExpiringMap.serve schedule m).1 := by
  induction schedule generalizing s m start metrics with
  | nil => rfl
  | cons x schedule ih =>
      obtain ⟨now, c⟩ := x
      obtain ⟨hstart, hrest⟩ := List.pairwise_cons.mp inOrder
      have hle : start ≤ now := hstart now (List.mem_cons_self ..)
      obtain ⟨hanswer, hnext⟩ := (hagree.later hle).serve c
      replace few : (carryOut ExpiringMap.serve schedule
        (m.serve now c).2).2.lastVersion < 2 ^ 64 := few
      have room : (s.toMap.serve now c).2.lastVersion < 2 ^ 64 := by
        rw [hnext.versions]
        exact Nat.lt_of_le_of_lt
          (ExpiringMap.lastVersion_le_carryOut schedule _) few
      obtain ⟨t, metrics', hserve, ht, htmap⟩ :=
        h.serve (fits _ (List.mem_cons_self ..)) room metrics
      have htail := ih ht (htmap.trans hnext) hrest
        (fun x hx => fits x (List.mem_cons_of_mem _ hx)) few metrics'
      unfold carryOut
      rw [hserve]
      show _ :: (carryOut Cache.serve schedule (t, metrics')).1 = _ :: _
      rw [htail, hanswer]

namespace Cache

/-- Over a store that starts empty the cache answers as the expiring map,
versions included, whatever is asked of it at whatever instants, as long as
fewer than 2^64 versions are taken. No operation fails but a swap that would
change a result. -/
theorem refines_expiringMap (schedule : List (UInt64 × Command))
    (metrics : Metrics)
    (inOrder : (schedule.map (·.1)).Pairwise (· ≤ ·))
    (fits : ∀ x ∈ schedule, x.2.Fits)
    (few : (carryOut ExpiringMap.serve schedule .empty).2.lastVersion
      < 2 ^ 64) :
    (carryOut serve schedule (.empty, metrics)).1
        = (carryOut ExpiringMap.serve schedule .empty).1
      ∧ ∀ (o : Operation) (error : StoreError),
        (⟨.perform o, .error error⟩ : Answered)
            ∈ (carryOut serve schedule (.empty, metrics)).1 →
          error = .resultChanged := by
  have hagree : ExpiringMap.Agree 0 MemoryStore.empty.toMap .empty := .refl _
  have hsame := MemoryStore.wellStored_empty.carryOut_serve hagree
    (List.pairwise_cons.mpr
      ⟨fun _ _ => UInt64.zero_le, inOrder⟩) fits few metrics
  refine ⟨hsame, fun o error herror => ?_⟩
  rw [hsame] at herror
  obtain ⟨now, m, hresult⟩ := mem_carryOut herror
  replace hresult : Except.error error = (m.perform now o).1 := hresult
  unfold ExpiringMap.perform at hresult
  have hrespond : (ExpiringMap.respond now (m.present? now o.key) o).1
      = .error error := by
    split at hresult
    · next hrespond => rw [hrespond, hresult]
    · next hrespond => rw [hrespond, hresult]
  exact ExpiringMap.respond_error hrespond

namespace Sample

open Store.Sample

/-- A stale swap, one of another result, an expiry that comes early, and an
occupant that has expired but was not swept. -/
def schedule : List (UInt64 × Command) :=
  [(1000, .perform (.putIfAbsent key entry)),
    (2000, .perform (.refresh key 60000)),
    (2000, .perform (.compareAndSwap key 1 entry)),
    (2500, .perform (.compareAndSwap key 2 other)),
    (2500, .perform (.compareAndSwap key 2 entry)),
    (4999, .perform (.putIfAbsent key other)),
    (5000, .perform (.get key)),
    (5000, .perform (.putIfAbsent key other)),
    (5001, .sweep),
    (5001, .perform (.getVersioned key))]

theorem fits_schedule : ∀ x ∈ schedule, x.2.Fits := by
  have hentry : entry.Fits := by decide
  have hother : other.Fits := by decide
  simp [schedule, Command.Fits, hentry, hother]

end Sample

theorem refines_expiringMap_sample :
    (carryOut serve Sample.schedule (.empty, .empty)).1
      = [⟨.perform (.putIfAbsent Sample.key Sample.entry),
            .ok (.stored Sample.entry)⟩,
          ⟨.perform (.refresh Sample.key 60000), .ok (some .swapped)⟩,
          ⟨.perform (.compareAndSwap Sample.key 1 Sample.entry),
            .ok .mismatch⟩,
          ⟨.perform (.compareAndSwap Sample.key 2 Sample.other),
            .error .resultChanged⟩,
          ⟨.perform (.compareAndSwap Sample.key 2 Sample.entry),
            .ok .swapped⟩,
          ⟨.perform (.putIfAbsent Sample.key Sample.other),
            .ok (.held Sample.entry)⟩,
          ⟨.perform (.get Sample.key), .ok none⟩,
          ⟨.perform (.putIfAbsent Sample.key Sample.other),
            .ok (.stored Sample.other)⟩,
          ⟨.sweep, ()⟩,
          ⟨.perform (.getVersioned Sample.key),
            .ok (some ⟨Sample.other, 4⟩)⟩] := by
  have few := ExpiringMap.lastVersion_carryOut_le Sample.schedule .empty
  rw [(refines_expiringMap Sample.schedule .empty (by decide)
    Sample.fits_schedule (Nat.lt_of_le_of_lt few (by decide))).1]
  rfl

end Cache

end OnceProxy.Store
