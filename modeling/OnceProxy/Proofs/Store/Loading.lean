/-
Versions go on after a snapshot is loaded.

A loaded store has under each key the last of its records that counts
(`mem_ofSnapshot`), and its counter stands at the highest version of all
records that count, those included whose place another one took
(`lastVersion_ofSnapshot`). From there on writes take consecutive numbers, so
that no version comes back, and no call dies as long as these do not run out
(`versions_go_on`).

A snapshot may bring the last number itself, and then they have run out: the
first write dies, and the counter it leaves behind gives out versions that
loaded records have (`versions_may_run_out`).
-/
import OnceProxy.Proofs.Store.Snapshot
import OnceProxy.Proofs.Store.Checked

namespace OnceProxy.Store

/-- What remains of records that are put one by one under their keys: of each
key the last one. -/
def Remains (listed : List (EntryKey × Record)) (key : EntryKey)
    (r : Record) : Prop :=
  ∃ before behind, listed = before ++ (key, r) :: behind
    ∧ ∀ p ∈ behind, p.1 ≠ key

/-- Looking from the end finds what remains. -/
theorem lookup_reverse {listed : List (EntryKey × Record)} {key : EntryKey}
    {r : Record} :
    listed.reverse.lookup key = some r ↔ Remains listed key r := by
  rw [List.lookup_eq_some_iff]
  constructor
  · intro h
    obtain ⟨front, back, hsplit, hfront⟩ := h
    refine ⟨back.reverse, front.reverse, ?_, ?_⟩
    · rw [← List.reverse_reverse listed, hsplit]
      simp
    · intro p hp heq
      have hp' := hfront p (List.mem_reverse.mp hp)
      simp [heq] at hp'
  · intro h
    obtain ⟨before, behind, rfl, hbehind⟩ := h
    refine ⟨behind.reverse, before.reverse, by simp, ?_⟩
    intro p hp
    have hp' := hbehind p (List.mem_reverse.mp hp)
    simpa using hp'.symm

-- =============================================================== versions

/-- The highest version of some records; zero if there are none. -/
def highest (listed : List (EntryKey × Record)) : UInt64 :=
  listed.foldl (fun top p => max top p.2.version) 0

theorem highest_concat (listed : List (EntryKey × Record))
    (p : EntryKey × Record) :
    highest (listed ++ [p]) = max (highest listed) p.2.version := by
  unfold highest
  rw [List.foldl_append]
  rfl

theorem both_le_max (v w : UInt64) : v ≤ max v w ∧ w ≤ max v w := by
  show v ≤ (if v ≤ w then w else v) ∧ w ≤ if v ≤ w then w else v
  by_cases h : v ≤ w
  · rw [if_pos h]
    exact ⟨h, UInt64.le_refl w⟩
  · rw [if_neg h]
    exact ⟨UInt64.le_refl v, UInt64.le_of_lt (UInt64.not_le.mp h)⟩

/-- No record has a higher version than the highest. -/
theorem version_le_highest {listed : List (EntryKey × Record)}
    {p : EntryKey × Record} (h : p ∈ listed) :
    p.2.version ≤ highest listed := by
  induction listed using List.reverseRecOn with
  | nil => cases h
  | append_singleton listed q ih =>
      rw [highest_concat]
      obtain ⟨hbefore, hlast⟩ := both_le_max (highest listed) q.2.version
      rcases List.mem_append.mp h with h | h
      · exact UInt64.le_trans (ih h) hbefore
      · rw [List.mem_singleton.mp h]
        exact hlast

/-- The highest version is that of a record, or there is none. -/
theorem highest_eq (listed : List (EntryKey × Record)) :
    highest listed = 0 ∨ ∃ p ∈ listed, p.2.version = highest listed := by
  induction listed using List.reverseRecOn with
  | nil => exact .inl rfl
  | append_singleton listed q ih =>
      rw [highest_concat]
      by_cases h : highest listed ≤ q.2.version
      · exact .inr ⟨q, by simp, (if_pos h).symm⟩
      · have hmax : max (highest listed) q.2.version = highest listed :=
          if_neg h
        rw [hmax]
        refine ih.imp_right fun hp => ?_
        obtain ⟨p, hp, hversion⟩ := hp
        exact ⟨p, List.mem_append_left _ hp, hversion⟩

namespace MemoryStore

-- ================================================================ loading

/-- Loading succeeds if the records can be read, and takes them over. -/
theorem load_eq_ok_iff {now : UInt64} {b : Octets} {t : MemoryStore} :
    load now b = .ok t
      ↔ ∃ records rest,
        Cbor.readSequence SnapshotRecord.read b = some (records, rest)
        ∧ ofSnapshot now records = t := by
  unfold load
  constructor
  · intro h
    split at h
    · next records rest hread =>
      exact ⟨records, rest, hread, Except.ok.inj h⟩
    · cases h
  · intro h
    obtain ⟨records, rest, hread, rfl⟩ := h
    rw [hread]

/-- A loaded store holds of each key the last of its records that counts, and
nothing else. -/
theorem mem_ofSnapshot (now : UInt64) (records : List SnapshotRecord)
    (key : EntryKey) (r : Record) :
    (key, r) ∈ (ofSnapshot now records).records
      ↔ Remains (records.filterMap (·.counted? now)) key r := by
  rw [← lookup_reverse, ← find?_ofSnapshot]
  constructor
  · exact Association.lookup_of_mem (distinct_ofSnapshot now records)
  · exact Association.mem_of_lookup

/-- The counter stands at the highest version of the records that count. -/
theorem lastVersion_ofSnapshot (now : UInt64) (records : List SnapshotRecord) :
    (ofSnapshot now records).lastVersion
      = highest (records.filterMap (·.counted? now)) := by
  induction records using List.reverseRecOn with
  | nil => rfl
  | append_singleton records r ih =>
      rw [ofSnapshot_concat, takeOver_eq, List.filterMap_append]
      cases hr : r.counted? now with
      | none => simpa [hr] using ih
      | some p => simp [hr, highest_concat, ih]

-- ================================================================ history

/-- Versions go on after loading. Whatever a snapshot says, the loaded store
has under each key the last of its records that counts, and nothing else, and
its counter stands at the highest version of those that count. No call that
follows dies as long as versions are left for all that may write. And if none
dies, the writes are given consecutive versions from the counter on: each is
above the versions of all records that count, and above those of the writes
before it. -/
theorem versions_go_on {now : UInt64} {b : Octets} {t : MemoryStore}
    (h : load now b = .ok t) :
    ∃ records rest,
      Cbor.readSequence SnapshotRecord.read b = some (records, rest)
      ∧ let counted := records.filterMap (·.counted? now)
        t.Distinct
        ∧ (∀ key r, (key, r) ∈ t.records ↔ Remains counted key r)
        ∧ (∀ p ∈ counted, p.2.version ≤ t.lastVersion)
        ∧ (t.lastVersion = 0 ∨ ∃ p ∈ counted, p.2.version = t.lastVersion)
        ∧ ∀ calls,
          (t.lastVersion.toNat + calls.countP (·.2.mayWrite) < 2 ^ 64 →
            ∃ journal, t.journal? calls = some journal)
          ∧ ∀ journal, t.journal? calls = some journal →
            let made := writes journal
            made.map (·.2.version.toNat)
                = List.range' (t.lastVersion.toNat + 1) made.length
            ∧ (∀ p ∈ counted, ∀ q ∈ made, p.2.version < q.2.version)
            ∧ made.Pairwise fun p q => p.2.version < q.2.version := by
  obtain ⟨records, rest, hread, rfl⟩ := load_eq_ok_iff.mp h
  have htop := lastVersion_ofSnapshot now records
  refine ⟨records, rest, hread, distinct_ofSnapshot now records,
    mem_ofSnapshot now records, fun p hp => ?_, ?_, fun calls =>
      ⟨exists_journal?, fun journal hjournal => ?_⟩⟩
  · rw [htop]
    exact version_le_highest hp
  · rw [htop]
    exact highest_eq _
  · have hnumbers := (journal?_spec hjournal).2
    refine ⟨hnumbers, fun p hp q hq => ?_,
      increasing_of_consecutive hnumbers⟩
    have hle := version_le_highest hp
    rw [← htop] at hle
    exact UInt64.lt_of_le_of_lt hle (above_of_consecutive hnumbers hq)

namespace Sample

open Store.Sample

/-- Records as a snapshot may list them: one that another replaces, one under
a key of a single octet, one that has expired, and the one that replaces the
first under a lower version. -/
def listed : List SnapshotRecord :=
  [⟨key.octets, [1], 40, 500⟩, ⟨[7], [2], 90, 500⟩,
    ⟨otherKey.octets, [3], 80, 50⟩, ⟨key.octets, [4], 5, 500⟩]

/-- The same, with a first record under the last version there is. -/
def brimming : List SnapshotRecord :=
  [⟨key.octets, [1], 0xffffffffffffffff, 500⟩, ⟨key.octets, [4], 5, 500⟩]

/-- Records as a snapshot. -/
def snapshot (records : List SnapshotRecord) : Octets :=
  (Cbor.Value.array (records.map SnapshotRecord.toValue)).encode

/-- A new record is written, and the loaded one replaced. -/
def following : List (UInt64 × Call) :=
  [(100, .ask (.put otherKey [5] 600)), (100, .ask (.get key)),
    (200, .ask (.swap key 5 [6] 600))]

/-- A new record is written. -/
def next : List (UInt64 × Call) := [(100, .ask (.put otherKey [5] 600))]

/-- Five new records are written. -/
def many : List (UInt64 × Call) :=
  (List.range 5).map fun i => (100, .ask (.put (.ofNat (i + 10)) [5] 600))

end Sample

/-- The record that was replaced counts for the versions: the next ones are
above its own. Those that are passed over do not. -/
theorem versions_go_on_replaced :
    ∃ t journal, load 100 (Sample.snapshot Sample.listed) = .ok t
      ∧ (Sample.key, ⟨[4], 5, 500⟩) ∈ t.records
      ∧ t.journal? Sample.following = some journal
      ∧ (writes journal).map (·.2.version.toNat) = [41, 42] := by
  have hread : Cbor.readSequence SnapshotRecord.read
      (Sample.snapshot Sample.listed) = some (Sample.listed, []) := by
    decide +kernel
  have hload : load 100 (Sample.snapshot Sample.listed) = .ok _ :=
    load_eq_ok_iff.mpr ⟨_, _, hread, rfl⟩
  obtain ⟨records, rest, hrecords, -, hmem, -, -, hcalls⟩ :=
    versions_go_on hload
  rw [hread] at hrecords
  cases hrecords
  obtain ⟨hanswered, hnumbers⟩ := hcalls Sample.following
  have room : (ofSnapshot 100 Sample.listed).lastVersion.toNat
      + Sample.following.countP (·.2.mayWrite) < 2 ^ 64 := by
    decide +kernel
  obtain ⟨journal, hjournal⟩ := hanswered room
  refine ⟨_, journal, hload, (hmem _ _).mpr ?_, hjournal, ?_⟩
  · exact ⟨[(Sample.key, ⟨[1], 40, 500⟩)], [], by decide +kernel, nofun⟩
  · refine (hnumbers journal hjournal).1.trans ?_
    rw [(journal?_spec hjournal).1]
    decide +kernel

/-- The last version is counted too, though its record is replaced. The first
write dies of it. It has changed no record, but those that follow it start
from zero, and the fifth is given the version of the record that was
loaded. -/
theorem versions_may_run_out :
    ∃ t, load 100 (Sample.snapshot Sample.brimming) = .ok t
      ∧ t.records = [(Sample.key, ⟨[4], 5, 500⟩)]
      ∧ t.journal? Sample.next = none
      ∧ t.serve? 100 (.ask (.put Sample.otherKey [5] 600))
        = (none, { t with lastVersion := 0 })
      ∧ ∃ journal,
        { t with lastVersion := 0 }.journal? Sample.many = some journal
        ∧ (writes journal).map (·.2.version) = [1, 2, 3, 4, 5] := by
  have hread : Cbor.readSequence SnapshotRecord.read
      (Sample.snapshot Sample.brimming) = some (Sample.brimming, []) := by
    decide +kernel
  refine ⟨_, load_eq_ok_iff.mpr ⟨_, _, hread, rfl⟩, ?_, ?_, ?_, ?_⟩
  · decide +kernel
  · rfl
  · rfl
  · refine ⟨_, rfl, ?_⟩
    decide +kernel

end MemoryStore

end OnceProxy.Store
