/-
The in-memory store as an expiring map of entries.

The cache reaches the store through stored forms, versions and conditional
writes. Over a store that only the cache has written to (`WellStored`) all
of that comes to four plain functions on a map of entries: looking up the
live entry of a key (`live?`), inserting an entry where there is none
(`insert`), moving the expiry of a live one (`extend`), and dropping what
has expired. The `run_` equations say so, one for each operation, and
nothing behind them opens a dialogue or a stored form again.

# The invariant

`WellStored` holds of the empty store and is kept by every write of an
entry and by every purge. Its clause about the record's expiry is what
makes the two looks at the clock agree, that of the store at its records
and that of the cache at its entries, so that a put never meets an
occupant that one of them takes for dead and the other for alive.
-/
import OnceProxy.Proofs.Entry.StoredForm
import OnceProxy.Proofs.Store.Records
import OnceProxy.Store.Cache

namespace OnceProxy.Store

-- =========================================================== the records

/-- The record is the stored form of an entry and expires with it. -/
structure Record.Holds (r : Record) (e : Entry) : Prop where
  fits : e.Fits
  value : r.value = e.encode
  expiry : r.expiresAt = e.expiresAt

/-- Such a record is read as that entry. -/
theorem Record.Holds.decode {r : Record} {e : Entry} (h : r.Holds e) :
    Entry.decode r.value = .ok e := by
  rw [h.value]
  exact Entry.decode_encode h.fits

/-- An instant is before the expiry or not, whoever asks. -/
theorem not_isExpiredAt (e : Entry) (now : UInt64) :
    (!e.isExpiredAt now) = decide (now < e.expiresAt) := by
  unfold Entry.isExpiredAt
  rw [← decide_not]
  exact decide_eq_decide.mpr UInt64.not_le

/-- The record is live as long as its entry. -/
theorem Record.Holds.isLive {r : Record} {e : Entry} (h : r.Holds e)
    (now : UInt64) : r.isLive now = !e.isExpiredAt now := by
  rw [not_isExpiredAt, ← h.expiry]
  rfl

namespace MemoryStore

/-- Everything in the store was written through the cache. -/
structure WellStored (s : MemoryStore) : Prop where
  distinct : s.Distinct
  holds : ∀ k r, s.find? k = some r → ∃ e, r.Holds e

theorem wellStored_empty : empty.WellStored :=
  ⟨distinct_empty, fun _ _ h => by cases h⟩

-- ========================================================== the entries

/-- The entry of a key, expired or not. -/
def held? (s : MemoryStore) (key : EntryKey) : Option Entry :=
  (s.find? key).bind fun r => (Entry.decode r.value).toOption

/-- The live entry of a key. -/
def live? (s : MemoryStore) (now : UInt64) (key : EntryKey) : Option Entry :=
  (s.held? key).filter fun e => !e.isExpiredAt now

/-- An entry is live if it is held and has not expired. -/
theorem live?_eq_some {s : MemoryStore} {now : UInt64} {key : EntryKey}
    {e : Entry} :
    s.live? now key = some e ↔ s.held? key = some e ∧ now < e.expiresAt := by
  unfold live?
  rw [Option.filter_eq_some_iff, not_isExpiredAt, decide_eq_true_eq]

/-- The record behind an entry that is held. -/
theorem WellStored.record {s : MemoryStore} (h : s.WellStored)
    {key : EntryKey} {e : Entry} (he : s.held? key = some e) :
    ∃ r, s.find? key = some r ∧ r.Holds e := by
  unfold held? at he
  cases hr : s.find? key with
  | none =>
      rw [hr] at he
      cases he
  | some r =>
      obtain ⟨f, hf⟩ := h.holds key r hr
      rw [hr, Option.bind_some, hf.decode] at he
      cases he
      exact ⟨r, rfl, hf⟩

/-- What is held fits into a record. -/
theorem WellStored.fits {s : MemoryStore} (h : s.WellStored)
    {key : EntryKey} {e : Entry} (he : s.held? key = some e) : e.Fits := by
  obtain ⟨r, -, hr⟩ := h.record he
  exact hr.fits

/-- An entry behind every record. -/
theorem WellStored.held {s : MemoryStore} (h : s.WellStored)
    {key : EntryKey} {r : Record} (hr : s.find? key = some r) :
    ∃ e, s.held? key = some e ∧ r.Holds e := by
  obtain ⟨e, he⟩ := h.holds key r hr
  refine ⟨e, ?_, he⟩
  unfold held?
  rw [hr, Option.bind_some, he.decode]
  rfl

/-- Without a live entry there is no live record, and conversely. -/
theorem WellStored.filter_isLive_eq_none {s : MemoryStore}
    (h : s.WellStored) (now : UInt64) (key : EntryKey) :
    (s.find? key).filter (·.isLive now) = none ↔ s.live? now key = none := by
  unfold live?
  cases hr : s.find? key with
  | none =>
      have hheld : s.held? key = none := by
        unfold held?
        rw [hr]
        rfl
      rw [hheld]
      exact ⟨fun _ => rfl, fun _ => rfl⟩
  | some r =>
      obtain ⟨e, he, hre⟩ := h.held hr
      rw [he, Option.filter_eq_none_iff, Option.filter_eq_none_iff]
      simp [hre.isLive]

/-- The live record behind a live entry. -/
theorem WellStored.filter_isLive_eq_some {s : MemoryStore}
    (h : s.WellStored) {now : UInt64} {key : EntryKey} {e : Entry}
    (he : s.live? now key = some e) :
    ∃ r, (s.find? key).filter (·.isLive now) = some r ∧ r.Holds e
      ∧ s.find? key = some r := by
  obtain ⟨hheld, hlive⟩ := live?_eq_some.mp he
  obtain ⟨r, hr, hre⟩ := h.record hheld
  refine ⟨r, ?_, hre, hr⟩
  rw [hr]
  refine Option.filter_some_pos ?_
  rw [hre.isLive, not_isExpiredAt]
  exact decide_eq_true hlive

/-- A key without a live record is one without a live entry. -/
theorem WellStored.get_eq_none {s : MemoryStore} (h : s.WellStored)
    (now : UInt64) (key : EntryKey) :
    s.get now key = none ↔ s.live? now key = none := by
  rw [← h.filter_isLive_eq_none]
  unfold MemoryStore.get
  exact Option.map_eq_none_iff

-- ============================================================== writing

/-- Writes an entry, whatever was there. -/
def writeEntry (s : MemoryStore) (key : EntryKey) (e : Entry) : MemoryStore :=
  s.write key e.encode e.expiresAt

/-- A swap under the version of the record writes its entry. -/
theorem compareAndSwap_find? {s : MemoryStore} {key : EntryKey} {r : Record}
    (hr : s.find? key = some r) (e : Entry) :
    s.compareAndSwap key r.version e.encode e.expiresAt
      = (.swapped (s.lastVersion + 1), s.writeEntry key e) := by
  unfold MemoryStore.compareAndSwap
  rw [hr]
  exact if_pos rfl

/-- The entries after one was written. -/
theorem held?_writeEntry {e : Entry} (he : e.Fits) (s : MemoryStore)
    (key k : EntryKey) :
    (s.writeEntry key e).held? k = if k = key then some e else s.held? k := by
  unfold held? writeEntry
  rw [find?_write]
  by_cases h : k = key
  · rw [if_pos h, if_pos h, Option.bind_some, Entry.decode_encode he]
    rfl
  · rw [if_neg h, if_neg h]

theorem WellStored.writeEntry {s : MemoryStore} (h : s.WellStored)
    (key : EntryKey) {e : Entry} (he : e.Fits) :
    (s.writeEntry key e).WellStored := by
  refine ⟨distinct_write h.distinct .., fun k r hr => ?_⟩
  unfold MemoryStore.writeEntry at hr
  rw [find?_write] at hr
  split at hr
  · cases hr
    exact ⟨e, he, rfl, rfl⟩
  · exact h.holds k r hr

/-- The entries after a purge: the live ones. -/
theorem WellStored.held?_purge {s : MemoryStore} (h : s.WellStored)
    (now : UInt64) (k : EntryKey) :
    (s.purge now).held? k = s.live? now k := by
  unfold held?
  rw [find?_purge h.distinct]
  cases he : s.live? now k with
  | none =>
      rw [(h.filter_isLive_eq_none now k).mpr he]
      rfl
  | some e =>
      obtain ⟨r, hr, hre, -⟩ := h.filter_isLive_eq_some he
      rw [hr, Option.bind_some, hre.decode]
      rfl

theorem WellStored.purge {s : MemoryStore} (h : s.WellStored)
    (now : UInt64) : (s.purge now).WellStored := by
  refine ⟨distinct_purge h.distinct now, fun k r hr => ?_⟩
  rw [find?_purge h.distinct] at hr
  exact h.holds k r (Option.filter_eq_some_iff.mp hr).1

/-- Stores an entry unless there is a live one. -/
def insert (s : MemoryStore) (now : UInt64) (key : EntryKey) (e : Entry) :
    MemoryStore :=
  match s.live? now key with
  | none => s.writeEntry key e
  | some _ => s

/-- The expiry that a refresh gives. -/
def extension (now : UInt64) (duration : Nat) : UInt64 :=
  addSaturating now (millis duration)

/-- Moves the expiry of a live entry to a duration from now, unless it is
later already. -/
def extend (s : MemoryStore) (now : UInt64) (key : EntryKey)
    (duration : Nat) : MemoryStore :=
  match s.live? now key with
  | none => s
  | some e =>
    if extension now duration ≤ e.expiresAt then s
    else s.writeEntry key (e.withExpiry (extension now duration))

/-- It writes a live entry with a later expiry, or nothing. -/
theorem extend_cases (s : MemoryStore) (now : UInt64) (key : EntryKey)
    (duration : Nat) :
    s.extend now key duration = s
    ∨ ∃ e expiry, s.live? now key = some e ∧ e.expiresAt < expiry
      ∧ s.extend now key duration
        = s.writeEntry key (e.withExpiry expiry) := by
  unfold extend
  cases he : s.live? now key with
  | none => exact .inl rfl
  | some e =>
      dsimp only
      split
      · exact .inl rfl
      · next hlater =>
        exact .inr ⟨e, _, rfl, UInt64.not_le.mp hlater, rfl⟩

end MemoryStore

-- ============================================================ dialogues

namespace Dialogue

variable {σ α β : Type} (B : Backend σ)

/-- A dialogue that goes on with a second one runs the two in turn. -/
theorem run_bind (now : UInt64) (d : Dialogue α) (f : α → Dialogue β)
    (s : σ × Metrics) :
    (d >>= f).run B now s
      = match d.run B now s with
        | (.ok a, t) => (f a).run B now t
        | (.error e, t) => (.error e, t) := by
  show (d.bind f).run B now s = _
  induction d generalizing s with
  | done a => rfl
  | fail e => rfl
  | clock next ih => exact ih now s
  | ask q next ih =>
      obtain ⟨store, metrics⟩ := s
      simp only [Dialogue.bind, run]
      split
      · exact ih _ _
      · rfl

theorem run_now (now : UInt64) (s : σ × Metrics) :
    Dialogue.now.run B now s = (.ok now, s) := rfl

variable (now : UInt64) (s : MemoryStore) (m : Metrics)

/-- Only a put makes the size known. -/
theorem run_query_get (key : EntryKey) :
    (query (.get key)).run MemoryStore.backend now (s, m)
      = (.ok (s.get now key), (s, m)) := rfl

theorem run_query_put (key : EntryKey) (value : Octets) (expiresAt : UInt64) :
    (query (.put key value expiresAt)).run MemoryStore.backend now (s, m)
      = (.ok (s.putIfAbsent now key value expiresAt).1,
          ((s.putIfAbsent now key value expiresAt).2,
            m.setEntries (s.putIfAbsent now key value expiresAt).2.size)) :=
  rfl

theorem run_query_swap (key : EntryKey) (version : UInt64) (value : Octets)
    (expiresAt : UInt64) :
    (query (.swap key version value expiresAt)).run MemoryStore.backend now
        (s, m)
      = (.ok (s.compareAndSwap key version value expiresAt).1,
          ((s.compareAndSwap key version value expiresAt).2, m)) := rfl

end Dialogue

namespace Cache

open Dialogue MemoryStore

/-- The stored form behind a record is read as its entry. -/
theorem decoded_of_holds {r : Record} {e : Entry} (h : r.Holds e) :
    decoded r.value = .done e := by
  unfold decoded
  rw [h.decode]

variable {s : MemoryStore}

/-- Reading a key that has no live entry. -/
theorem run_getVersioned_none (h : s.WellStored) {now : UInt64}
    {key : EntryKey} (hnone : s.live? now key = none) (m : Metrics) :
    (getVersioned key).run backend now (s, m) = (.ok none, (s, m)) := by
  unfold getVersioned
  rw [run_bind, run_query_get, (h.get_eq_none now key).mpr hnone]
  rfl

/-- Reading a key that has a live entry. -/
theorem run_getVersioned_some (h : s.WellStored) {now : UInt64}
    {key : EntryKey} {e : Entry} (hsome : s.live? now key = some e)
    (m : Metrics) :
    ∃ r, s.find? key = some r ∧ r.Holds e
      ∧ (getVersioned key).run backend now (s, m)
        = (.ok (some ⟨e, r.version⟩), (s, m)) := by
  obtain ⟨r, hr, hre, hfind⟩ := h.filter_isLive_eq_some hsome
  refine ⟨r, hfind, hre, ?_⟩
  have hget : s.get now key = some r.versioned := by
    unfold MemoryStore.get
    rw [hr]
    rfl
  have hexp : e.isExpiredAt now = false := by
    have hlive := not_isExpiredAt e now
    rw [decide_eq_true (live?_eq_some.mp hsome).2] at hlive
    simpa using hlive
  unfold getVersioned
  rw [run_bind, run_query_get, hget]
  show (decoded r.value >>= _).run backend now (s, m) = _
  rw [run_bind, decoded_of_holds hre]
  show (Dialogue.now >>= _).run backend now (s, m) = _
  rw [run_bind, run_now]
  simp only [hexp, Bool.false_eq_true, if_false]
  rfl

/-- The cache reads the live entry of a key. -/
theorem run_get (h : s.WellStored) (now : UInt64) (key : EntryKey)
    (m : Metrics) :
    (get key).run backend now (s, m)
      = (.ok (s.live? now key), (s, m)) := by
  unfold get
  rw [run_bind]
  cases he : s.live? now key with
  | none =>
      rw [run_getVersioned_none h he]
      rfl
  | some e =>
      obtain ⟨r, -, -, hrun⟩ := run_getVersioned_some h he m
      rw [hrun]
      rfl

/-- The cache moves the expiry of the live entry of a key. -/
theorem run_refresh (h : s.WellStored) (now : UInt64) (key : EntryKey)
    (duration : Nat) (m : Metrics) :
    (refresh key duration).run backend now (s, m)
      = (.ok ((s.live? now key).map fun _ => .swapped),
          (s.extend now key duration, m)) := by
  unfold refresh MemoryStore.extend
  rw [run_bind]
  cases he : s.live? now key with
  | none =>
      rw [run_getVersioned_none h he]
      rfl
  | some e =>
      obtain ⟨r, hr, hre, hrun⟩ := run_getVersioned_some h he m
      rw [hrun]
      show (Dialogue.now >>= _).run backend now (s, m) = _
      rw [run_bind, run_now]
      show (if extension now duration ≤ e.expiresAt then _
        else _ : Dialogue _).run backend now (s, m) = _
      by_cases hle : extension now duration ≤ e.expiresAt
      · simp only [if_pos hle]
        rfl
      · -- the version just read is still there, so the swap succeeds
        have hs := compareAndSwap_find? hr
          (e.withExpiry (extension now duration))
        simp only [if_neg hle]
        unfold swap
        rw [run_bind, run_bind, run_query_swap]
        unfold extension at hs ⊢
        rw [hs]
        rfl

/-- The cache stores an entry unless there is a live one. -/
theorem run_putIfAbsent (h : s.WellStored) (now : UInt64) (key : EntryKey)
    (e : Entry) (m : Metrics) :
    (putIfAbsent key e).run backend now (s, m)
      = (.ok (match s.live? now key with
          | none => .stored e
          | some f => .held f),
        (s.insert now key e, m.setEntries (s.insert now key e).size)) := by
  unfold putIfAbsent maxReplaceAttempts putWith MemoryStore.insert
  rw [run_bind, run_bind, run_query_put]
  cases he : s.live? now key with
  | none =>
      have hput : s.putIfAbsent now key e.encode e.expiresAt
          = (.stored (s.lastVersion + 1), s.writeEntry key e) := by
        unfold MemoryStore.putIfAbsent
        rw [(h.filter_isLive_eq_none now key).mpr he]
        rfl
      rw [hput]
      rfl
  | some f =>
      obtain ⟨r, hr, hre, -⟩ := h.filter_isLive_eq_some he
      have hput : s.putIfAbsent now key e.encode e.expiresAt
          = (.held r.versioned, s) := by
        unfold MemoryStore.putIfAbsent
        rw [hr]
      have hlive : (!f.isExpiredAt now) = true := by
        rw [not_isExpiredAt]
        exact decide_eq_true (live?_eq_some.mp he).2
      have hdec : decoded r.versioned.value = .done f := decoded_of_holds hre
      rw [hput]
      dsimp only
      rw [run_bind, hdec]
      simp only [Dialogue.run, run_bind, run_now, hlive, if_true]
      rfl

end Cache

namespace Sample

/-- An entry, and one of another result that expires later. -/
def entry : Entry := ⟨.ofNat 1, .ofNat 2, 201, [], [4, 5, 6], 1000, 5000⟩
def other : Entry := { entry with body := [4], expiresAt := 9000 }

end Sample

end OnceProxy.Store
