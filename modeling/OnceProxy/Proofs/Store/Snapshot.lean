/-
A snapshot read back.

Reading gives back the records that were written, in their order
(`load_save_eq`). What loading makes of records is a map again: a key has
the last of its records that counts (`find?_ofSnapshot`). A store lists each
key once, so it does not matter in which order it lists them, and a loaded
store holds of the saved one what has not expired (`load_save`).
-/
import Mathlib.Data.List.Basic
import Mathlib.Data.List.Induction
import OnceProxy.Proofs.Cbor.ReadBack
import OnceProxy.Proofs.Store.Records
import OnceProxy.Store.Snapshot

namespace OnceProxy.Store

open Cbor Crypto

-- =============================================================== reading

namespace SnapshotRecord

/-- The lengths of a record's strings are numbers of 64 bits, as those of
everything that is held in memory. -/
structure Fits (r : SnapshotRecord) : Prop where
  key : r.key.length < 2 ^ 64
  value : r.value.length < 2 ^ 64

/-- Reading gives back the record that was written. -/
theorem read_toValue {r : SnapshotRecord} (h : r.Fits) (rest : Octets) :
    read (r.toValue.encode ++ rest) = some (r, rest) := by
  have hkey := readOctets_encode h.key
  have hvalue := readOctets_encode h.value
  -- the draft after each round
  let d₁ : Draft := ⟨some r.key, none, none, none⟩
  let d₂ : Draft := { d₁ with value := some r.value }
  let d₃ : Draft := { d₂ with version := some r.version }
  let d₄ : Draft := { d₃ with expiresAt := some r.expiresAt }
  unfold read toValue
  rw [readRecord_encode _ _ (by simp), List.length_cons, List.length_cons,
    List.length_cons, List.length_cons, List.length_nil,
    foldMany_entry d₁ (by decide) fun rest => ?k,
    foldMany_entry d₂ (by decide) fun rest => ?v,
    foldMany_entry d₃ (by decide) fun rest => ?ver,
    foldMany_entry d₄ (by decide) fun rest => ?ea]
  · rfl
  case k => simp [Draft.readField, readOnce, hkey, d₁]
  case v => simp [Draft.readField, readOnce, hvalue, d₁, d₂]
  case ver => simp [Draft.readField, readOnce, readUInt64_encode, d₁, d₂, d₃]
  case ea =>
    simp [Draft.readField, readOnce, readUInt64_encode, d₁, d₂, d₃, d₄]

/-- The record of the store that this one stands for at an instant, with its
key; none if it does not count. -/
def counted? (now : UInt64) (r : SnapshotRecord) : Option (EntryKey × Record) :=
  if r.expiresAt ≤ now then none
  else (Digest.ofOctets? r.key).map
    (·, ⟨r.value, r.version, r.expiresAt⟩)

end SnapshotRecord

namespace MemoryStore

-- =============================================================== loading

/-- Loading a record puts it under its key, and raises the counter to its
version, if it counts. -/
theorem takeOver_eq (now : UInt64) (s : MemoryStore) (r : SnapshotRecord) :
    s.takeOver now r
      = match r.counted? now with
        | none => s
        | some (key, record) =>
          ⟨upsert s.records key record,
            max s.lastVersion record.version⟩ := by
  unfold takeOver SnapshotRecord.counted?
  split
  · rfl
  · cases Digest.ofOctets? r.key <;> rfl

theorem distinct_takeOver {s : MemoryStore} (h : s.Distinct) (now : UInt64)
    (r : SnapshotRecord) : (s.takeOver now r).Distinct := by
  unfold Distinct
  rw [takeOver_eq]
  split
  · exact h
  · exact nodup_upsert h ..

theorem ofSnapshot_concat (now : UInt64) (records : List SnapshotRecord)
    (r : SnapshotRecord) :
    ofSnapshot now (records ++ [r])
      = (ofSnapshot now records).takeOver now r := by
  unfold ofSnapshot
  rw [List.foldl_append]
  rfl

theorem distinct_ofSnapshot (now : UInt64) (records : List SnapshotRecord) :
    (ofSnapshot now records).Distinct := by
  induction records using List.reverseRecOn with
  | nil => exact distinct_empty
  | append_singleton records r ih =>
      rw [ofSnapshot_concat]
      exact distinct_takeOver ih now r

/-- A key has the last of its records that counts. -/
theorem find?_ofSnapshot (now : UInt64) (records : List SnapshotRecord)
    (key : EntryKey) :
    (ofSnapshot now records).find? key
      = (records.filterMap (·.counted? now)).reverse.lookup key := by
  induction records using List.reverseRecOn with
  | nil => rfl
  | append_singleton records r ih =>
      rw [ofSnapshot_concat, List.filterMap_append, List.reverse_append]
      unfold find? at ih ⊢
      rw [takeOver_eq]
      cases hr : r.counted? now with
      | none => simpa [hr] using ih
      | some p =>
          obtain ⟨k, record⟩ := p
          dsimp only
          rw [lookup_upsert, ih]
          by_cases hk : key = k
          · simp [hr, hk]
          · simp [hr, hk, Association.lookup_cons_of_ne]

-- ============================================================= round trip

/-- The lengths of everything in the store are numbers of 64 bits, as those
of everything that is held in memory. -/
structure Fits (s : MemoryStore) : Prop where
  count : s.records.length < 2 ^ 64
  values : ∀ p ∈ s.records, p.2.value.length < 2 ^ 64

/-- Loading what was saved takes over the records that were listed. -/
theorem load_save_eq {s : MemoryStore} (h : s.Fits) (saved loaded : UInt64) :
    load loaded (s.save saved)
      = .ok (ofSnapshot loaded (s.snapshotRecords saved)) := by
  have hlen : (s.snapshotRecords saved).length < 2 ^ 64 := by
    unfold snapshotRecords
    rw [List.length_map]
    exact Nat.lt_of_le_of_lt (List.length_filter_le ..) h.count
  have hread := readSequence_encode SnapshotRecord.read SnapshotRecord.toValue
    hlen (fun r hr rest => SnapshotRecord.read_toValue ?_ rest) []
  · rw [List.append_nil] at hread
    unfold load save
    rw [hread]
  · obtain ⟨⟨key, record⟩, hp, rfl⟩ := List.mem_map.mp hr
    exact ⟨key.length_lt, h.values _ (List.mem_filter.mp hp).1⟩

/-- Those of the listed records count that are live when they are saved and
when they are loaded. -/
theorem counted_snapshotRecords (s : MemoryStore) (saved loaded : UInt64) :
    (s.snapshotRecords saved).filterMap (·.counted? loaded)
      = s.records.filter fun p => p.2.isLive saved && p.2.isLive loaded := by
  unfold snapshotRecords
  rw [List.filterMap_map, List.filterMap_filter, ← List.filterMap_eq_filter]
  refine List.filterMap_congr fun ⟨key, r⟩ _ => ?_
  show (if r.isLive saved then SnapshotRecord.counted? loaded
      ⟨key.octets, r.value, r.version, r.expiresAt⟩ else none)
    = if r.isLive saved && r.isLive loaded then some (key, r) else none
  unfold SnapshotRecord.counted?
  by_cases hdead : r.expiresAt ≤ loaded
  · simp [hdead, Record.isLive_eq_false.mpr hdead]
  · simp [hdead, Record.isLive_iff.mpr (UInt64.not_le.mp hdead)]

/-- A store that is saved and loaded holds what had not expired at either
instant, whatever the order in which its records are listed. -/
theorem load_save_of_live {s : MemoryStore} (h : s.Fits) (hs : s.Distinct)
    {listed : List (EntryKey × Record)} (order : listed.Perm s.records)
    (saved loaded : UInt64) :
    ∃ t, load loaded (save { s with records := listed } saved) = .ok t
      ∧ t.Distinct
      ∧ ∀ key, t.find? key = (s.find? key).filter fun r =>
          r.isLive saved && r.isLive loaded := by
  have hlisted : Fits { s with records := listed } :=
    ⟨order.length_eq ▸ h.count,
      fun p hp => h.values p (order.mem_iff.mp hp)⟩
  refine ⟨_, load_save_eq hlisted saved loaded, distinct_ofSnapshot .., ?_⟩
  intro key
  have hdistinct := Association.nodup_filter hs
    fun p => p.2.isLive saved && p.2.isLive loaded
  -- keys are distinct, so finding does not depend on the order
  have hperm : (s.records.filter fun p =>
        p.2.isLive saved && p.2.isLive loaded).Perm
      (listed.filter fun p => p.2.isLive saved && p.2.isLive loaded).reverse :=
    (order.symm.filter _).trans (List.reverse_perm _).symm
  rw [find?_ofSnapshot, counted_snapshotRecords,
    ← Association.lookup_perm hdistinct hperm]
  exact Association.lookup_filter hs ..

/-- A store that is saved and loaded later holds what has not expired at
loading. -/
theorem load_save {s : MemoryStore} (h : s.Fits) (hs : s.Distinct)
    {listed : List (EntryKey × Record)} (order : listed.Perm s.records)
    {saved loaded : UInt64} (hle : saved ≤ loaded) :
    ∃ t, load loaded (save { s with records := listed } saved) = .ok t
      ∧ t.Distinct
      ∧ ∀ key, t.find? key = (s.find? key).filter (·.isLive loaded) := by
  obtain ⟨t, ht, hdistinct, hfind⟩ :=
    load_save_of_live h hs order saved loaded
  refine ⟨t, ht, hdistinct, fun key => ?_⟩
  rw [hfind]
  congr 1
  funext r
  -- what is live at loading was live at saving
  cases hlive : r.isLive loaded with
  | false => exact Bool.and_false _
  | true =>
      rw [Bool.and_true]
      exact Record.isLive_iff.mpr
        (UInt64.lt_of_le_of_lt hle (Record.isLive_iff.mp hlive))

end MemoryStore

end OnceProxy.Store
