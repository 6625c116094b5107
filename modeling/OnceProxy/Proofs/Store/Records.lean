/-
The records of the in-memory store as a finite map.

`find?` reads the map, `write` and `purge` change it. `Distinct` is the
invariant that the list of records is one: no key stands twice. A write
keeps it unconditionally, since `upsert` replaces in place what it finds.
The conditional writes either write or change nothing (`putIfAbsent_cases`,
`compareAndSwap_cases`).
-/
import OnceProxy.Proofs.Association
import OnceProxy.Store.Memory

namespace OnceProxy.Store

namespace Record

theorem isLive_iff {r : Record} {now : UInt64} :
    r.isLive now = true ↔ now < r.expiresAt :=
  decide_eq_true_iff

theorem isLive_eq_false {r : Record} {now : UInt64} :
    r.isLive now = false ↔ r.expiresAt ≤ now := by
  rw [Bool.eq_false_iff, ne_eq, isLive_iff, UInt64.not_lt]

end Record

namespace MemoryStore

open Association (lookup_cons_of_ne)

-- ============================================================= upserting

/-- Looking into an upserted list. -/
theorem lookup_upsert (l : List (EntryKey × Record)) (key k : EntryKey)
    (r : Record) :
    (upsert l key r).lookup k = if k = key then some r else l.lookup k := by
  induction l with
  | nil =>
      by_cases h : k = key
      · subst h
        simp [upsert]
      · rw [if_neg h]
        exact lookup_cons_of_ne h r []
  | cons p l ih =>
      obtain ⟨q, old⟩ := p
      unfold upsert
      by_cases hq : q = key
      · subst hq
        rw [if_pos rfl]
        by_cases h : k = q
        · subst h
          simp
        · rw [lookup_cons_of_ne h, if_neg h, lookup_cons_of_ne h]
      · rw [if_neg hq]
        by_cases h : k = q
        · subst h
          simp [hq]
        · rw [lookup_cons_of_ne h, lookup_cons_of_ne h, ih]

/-- The keys of an upserted list. -/
theorem mem_keys_upsert {l : List (EntryKey × Record)} {key k : EntryKey}
    {r : Record} (h : k ∈ (upsert l key r).map (·.1)) :
    k = key ∨ k ∈ l.map (·.1) := by
  induction l with
  | nil => exact Or.inl (by simpa [upsert] using h)
  | cons p l ih =>
      obtain ⟨q, old⟩ := p
      unfold upsert at h
      split at h
      · exact Or.inr (by simpa using h)
      · rcases List.mem_cons.mp h with rfl | h'
        · exact Or.inr (List.mem_cons_self ..)
        · rcases ih h' with rfl | h''
          · exact Or.inl rfl
          · exact Or.inr (List.mem_cons_of_mem _ h'')

/-- An upsert keeps keys apart. -/
theorem nodup_upsert {l : List (EntryKey × Record)}
    (hl : (l.map (·.1)).Nodup) (key : EntryKey) (r : Record) :
    ((upsert l key r).map (·.1)).Nodup := by
  induction l with
  | nil => simp [upsert]
  | cons p l ih =>
      obtain ⟨q, old⟩ := p
      obtain ⟨hq, hl'⟩ := List.nodup_cons.mp hl
      unfold upsert
      split
      · exact List.nodup_cons.mpr ⟨hq, hl'⟩
      · next hne =>
        refine List.nodup_cons.mpr ⟨fun hin => ?_, ih hl'⟩
        rcases mem_keys_upsert hin with h | h
        · exact hne h
        · exact hq h

-- ============================================================ the map

/-- No key stands twice among the records. -/
def Distinct (s : MemoryStore) : Prop := (s.records.map (·.1)).Nodup

theorem distinct_empty : empty.Distinct := List.nodup_nil

/-- The record of a written key. -/
theorem find?_write (s : MemoryStore) (key k : EntryKey) (value : Octets)
    (expiresAt : UInt64) :
    (s.write key value expiresAt).find? k
      = if k = key then some ⟨value, s.lastVersion + 1, expiresAt⟩
        else s.find? k :=
  lookup_upsert ..

theorem distinct_write {s : MemoryStore} (h : s.Distinct) (key : EntryKey)
    (value : Octets) (expiresAt : UInt64) :
    (s.write key value expiresAt).Distinct :=
  nodup_upsert h ..

/-- What a purge leaves of a record. -/
theorem find?_purge {s : MemoryStore} (h : s.Distinct) (now : UInt64)
    (k : EntryKey) :
    (s.purge now).find? k = (s.find? k).filter (·.isLive now) :=
  Association.lookup_filter h ..

theorem distinct_purge {s : MemoryStore} (h : s.Distinct) (now : UInt64) :
    (s.purge now).Distinct :=
  Association.nodup_filter h ..

-- ================================================================ calls

/-- A put writes where no record is live, or tells the live record. -/
theorem putIfAbsent_cases (s : MemoryStore) (now : UInt64) (key : EntryKey)
    (value : Octets) (expiresAt : UInt64) :
    ((∀ r, s.find? key = some r → r.expiresAt ≤ now)
      ∧ s.putIfAbsent now key value expiresAt
        = (.stored (s.lastVersion + 1), s.write key value expiresAt))
    ∨ ∃ r, s.find? key = some r ∧ now < r.expiresAt
      ∧ s.putIfAbsent now key value expiresAt = (.held r.versioned, s) := by
  unfold putIfAbsent
  cases hr : (s.find? key).filter (·.isLive now) with
  | none =>
      refine .inl ⟨fun r hfind => ?_, rfl⟩
      rw [hfind, Option.filter_eq_none_iff] at hr
      exact Record.isLive_eq_false.mp (Bool.eq_false_iff.mpr (hr r rfl))
  | some r =>
      obtain ⟨hfind, hlive⟩ := Option.filter_eq_some_iff.mp hr
      exact .inr ⟨r, hfind, Record.isLive_iff.mp hlive, rfl⟩

/-- A swap replaces the record of its version or does nothing. -/
theorem compareAndSwap_cases (s : MemoryStore) (key : EntryKey)
    (version : UInt64) (value : Octets) (expiresAt : UInt64) :
    ((∀ r, s.find? key = some r → r.version ≠ version)
      ∧ s.compareAndSwap key version value expiresAt = (.mismatch, s))
    ∨ ∃ r, s.find? key = some r ∧ r.version = version
      ∧ s.compareAndSwap key version value expiresAt
        = (.swapped (s.lastVersion + 1), s.write key value expiresAt) := by
  unfold compareAndSwap
  cases hr : s.find? key with
  | none => exact .inl ⟨nofun, rfl⟩
  | some r =>
      dsimp only
      split
      · next hv => exact .inr ⟨r, rfl, hv, rfl⟩
      · next hv =>
        refine .inl ⟨fun r' hr' => ?_, rfl⟩
        cases hr'
        exact hv

end MemoryStore

namespace Sample

/-- A key like any other, and another one. -/
def key : EntryKey := .ofNat 7
def otherKey : EntryKey := .ofNat 8

end Sample

end OnceProxy.Store
