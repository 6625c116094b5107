/-
What sweeping changes for the clients of the in-memory store.

A read and a put treat an expired record as absent, whether or not a sweep
has taken it. A swap goes by the version alone: it replaces an expired record
that is still there, and is refused once a sweep has taken it. So sweeps can
be told by such a swap (`sweeping_seen`) and by nothing else
(`sweeping_unseen`). Two stores that differ by sweeps differ only in expired
records (`Swept`), which every call keeps and the passing of time too.
-/
import OnceProxy.Proofs.Store.Updates

namespace OnceProxy.Store

/-- Calls without the sweeps among them. -/
def unswept (calls : List (UInt64 × Call)) : List (UInt64 × Call) :=
  calls.filter (·.2 ≠ .purge)

/-- What clients get to see of a journal. -/
def asked (journal : List Receipt) : List Receipt :=
  journal.filter (·.call ≠ .purge)

namespace MemoryStore

/-- A swap that names the version of a record that has expired. -/
def Revives (s : MemoryStore) (now : UInt64) : Call → Prop
  | .ask (.swap key version _ _) =>
    ∃ r ∈ s.find? key, r.version = version ∧ r.expiresAt ≤ now
  | _ => False

instance (s : MemoryStore) (now : UInt64) (c : Call) :
    Decidable (s.Revives now c) :=
  match c with
  | .ask (.swap key version _ _) =>
    inferInstanceAs (Decidable (∃ r ∈ s.find? key,
      r.version = version ∧ r.expiresAt ≤ now))
  | .ask (.get _) | .ask (.put ..) | .purge => inferInstanceAs (Decidable False)

/-- None of the calls, each in its turn, is a swap under the version of a
record that has expired by then. -/
def NeverRevives (s : MemoryStore) : List (UInt64 × Call) → Prop
  | [] => True
  | (now, c) :: calls =>
    ¬s.Revives now c ∧ NeverRevives (s.serve now c).2 calls

instance decidableNeverRevives (s : MemoryStore) :
    (calls : List (UInt64 × Call)) → Decidable (s.NeverRevives calls)
  | [] => inferInstanceAs (Decidable True)
  | (now, c) :: calls =>
    have := decidableNeverRevives (s.serve now c).2 calls
    inferInstanceAs (Decidable (_ ∧ _))

-- ======================================================== expired records

/-- The second store is the first without some records that have expired. -/
structure Swept (now : UInt64) (s t : MemoryStore) : Prop where
  distinct : t.Distinct
  lastVersion : t.lastVersion = s.lastVersion
  records : ∀ key, t.find? key = s.find? key
    ∨ t.find? key = none ∧ ∀ r, s.find? key = some r → r.expiresAt ≤ now

namespace Swept

variable {now : UInt64} {s t : MemoryStore}

theorem refl (hs : s.Distinct) : Swept now s s :=
  ⟨hs, rfl, fun _ => .inl rfl⟩

/-- What has expired stays so. -/
theorem mono {later : UInt64} (h : Swept now s t) (hlater : now ≤ later) :
    Swept later s t := by
  refine ⟨h.distinct, h.lastVersion, fun key => ?_⟩
  rcases h.records key with hsame | ⟨hnone, hdead⟩
  · exact .inl hsame
  · exact .inr ⟨hnone, fun r hr => UInt64.le_trans (hdead r hr) hlater⟩

/-- A sweep drops expired records only. -/
theorem purge (h : Swept now s t) : Swept now s (t.purge now) := by
  refine ⟨distinct_purge h.distinct now, h.lastVersion, fun key => ?_⟩
  rw [find?_purge h.distinct]
  rcases h.records key with hsame | ⟨hnone, hdead⟩
  · rw [hsame]
    cases hr : s.find? key with
    | none => exact .inl rfl
    | some r =>
        cases hlive : r.isLive now with
        | true => exact .inl (Option.filter_some_pos hlive)
        | false =>
            refine .inr ⟨Option.filter_some_neg hlive, fun r' hr' => ?_⟩
            cases hr'
            exact Record.isLive_eq_false.mp hlive
  · exact .inr ⟨by rw [hnone, Option.filter_none], hdead⟩

/-- The live records are the same. -/
theorem live (h : Swept now s t) (key : EntryKey) :
    (t.find? key).filter (·.isLive now) = (s.find? key).filter (·.isLive now) := by
  rcases h.records key with hsame | ⟨hnone, hdead⟩
  · rw [hsame]
  · rw [hnone, Option.filter_none, eq_comm, Option.filter_eq_none_iff]
    intro r hr
    exact Bool.eq_false_iff.mp (Record.isLive_eq_false.mpr (hdead r hr))

/-- Both stores give a write the same version. -/
theorem write (h : Swept now s t) (key : EntryKey) (value : Octets)
    (expiresAt : UInt64) :
    Swept now (s.write key value expiresAt) (t.write key value expiresAt) := by
  refine ⟨distinct_write h.distinct .., ?_, fun k => ?_⟩
  · show t.lastVersion + 1 = s.lastVersion + 1
    rw [h.lastVersion]
  · rw [find?_write, find?_write, h.lastVersion]
    split
    · exact .inl rfl
    · exact h.records k

theorem putIfAbsent (h : Swept now s t) (key : EntryKey) (value : Octets)
    (expiresAt : UInt64) :
    (t.putIfAbsent now key value expiresAt).1
      = (s.putIfAbsent now key value expiresAt).1
    ∧ Swept now (s.putIfAbsent now key value expiresAt).2
      (t.putIfAbsent now key value expiresAt).2 := by
  unfold MemoryStore.putIfAbsent
  rw [h.live]
  cases (s.find? key).filter (·.isLive now) with
  | some r => exact ⟨rfl, h⟩
  | none =>
      refine ⟨?_, h.write ..⟩
      show PutAnswer.stored (t.lastVersion + 1) = .stored (s.lastVersion + 1)
      rw [h.lastVersion]

/-- A swap tells the stores apart only by an expired record of its version. -/
theorem compareAndSwap (h : Swept now s t) {key : EntryKey}
    {version : UInt64} {value : Octets} {expiresAt : UInt64}
    (dead : ¬s.Revives now (.ask (.swap key version value expiresAt))) :
    (t.compareAndSwap key version value expiresAt).1
      = (s.compareAndSwap key version value expiresAt).1
    ∧ Swept now (s.compareAndSwap key version value expiresAt).2
      (t.compareAndSwap key version value expiresAt).2 := by
  rcases h.records key with hsame | ⟨hnone, hdead⟩
  · unfold MemoryStore.compareAndSwap
    rw [hsame]
    cases s.find? key with
    | none => exact ⟨rfl, h⟩
    | some r =>
        dsimp only
        split
        · refine ⟨?_, h.write ..⟩
          show SwapAnswer.swapped (t.lastVersion + 1)
            = .swapped (s.lastVersion + 1)
          rw [h.lastVersion]
        · exact ⟨rfl, h⟩
  · -- only the first store has a record, which has expired
    have ht : t.compareAndSwap key version value expiresAt
        = (.mismatch, t) := by
      unfold MemoryStore.compareAndSwap
      rw [hnone]
    rcases s.compareAndSwap_cases key version value expiresAt with
      ⟨-, hs⟩ | ⟨r, hr, hv, -⟩
    · rw [hs, ht]
      exact ⟨rfl, h⟩
    · exact absurd ⟨r, hr, hv, hdead r hr⟩ dead

/-- A query is answered alike. -/
theorem answer (h : Swept now s t) {q : Query}
    (dead : ¬s.Revives now (.ask q)) :
    (t.answer q now).1 = (s.answer q now).1
    ∧ Swept now (s.answer q now).2 (t.answer q now).2 := by
  cases q with
  | get key => exact ⟨congrArg (Option.map Record.versioned) (h.live key), h⟩
  | put key value expiresAt => exact h.putIfAbsent ..
  | swap key version value expiresAt => exact h.compareAndSwap dead

/-- Calls with sweeps among them are answered as the calls alone. -/
theorem journal (h : Swept now s t) (calls : List (UInt64 × Call))
    (ordered : (now :: calls.map (·.1)).Pairwise (· ≤ ·))
    (dead : s.NeverRevives (unswept calls)) :
    asked (t.journal calls) = s.journal (unswept calls) := by
  -- time passes, then the call is served: both keep what was swept
  induction calls generalizing now s t with
  | nil => rfl
  | cons y calls ih =>
      obtain ⟨instant, c⟩ := y
      obtain ⟨hnow, hordered⟩ := List.pairwise_cons.mp ordered
      have hinstant := h.mono (hnow instant (List.mem_cons_self ..))
      cases c with
      | purge => exact ih hinstant.purge hordered dead
      | ask q =>
          obtain ⟨hq, hcalls⟩ : ¬s.Revives instant (.ask q)
              ∧ (s.answer q instant).2.NeverRevives (unswept calls) := dead
          obtain ⟨hanswer, hswept⟩ := hinstant.answer hq
          have hrest := ih hswept hordered hcalls
          show (⟨instant, .ask q, (t.answer q instant).1⟩ : Receipt)
              :: asked ((t.answer q instant).2.journal calls)
            = ⟨instant, .ask q, (s.answer q instant).1⟩
              :: (s.answer q instant).2.journal (unswept calls)
          rw [hanswer, hrest]

end Swept

-- ======================================================== as absent or not

section Expired

variable {s : MemoryStore} {now : UInt64} {key : EntryKey} {r : Record}

/-- A read and a put do not see an expired record. -/
theorem expired_absent (hr : s.find? key = some r) (dead : r.expiresAt ≤ now) :
    s.get now key = none
    ∧ ∀ value expiresAt, (s.putIfAbsent now key value expiresAt).1
      = .stored (s.lastVersion + 1) := by
  have hfilter : (s.find? key).filter (·.isLive now) = none := by
    rw [hr]
    exact Option.filter_some_neg (Record.isLive_eq_false.mpr dead)
  unfold get putIfAbsent
  rw [hfilter]
  exact ⟨rfl, fun _ _ => rfl⟩

/-- A swap under its version replaces a record, expired or not, as long as no
sweep has taken it. -/
theorem compareAndSwap_of_version (hr : s.find? key = some r) (value : Octets)
    (expiresAt : UInt64) :
    (s.compareAndSwap key r.version value expiresAt).1
      = .swapped (s.lastVersion + 1) := by
  unfold compareAndSwap
  rw [hr]
  simp [write]

end Expired

/-- A sweep is not seen by any client that does not name the version of an
expired record. From any store that calls have left, let calls at instants
that do not fall be made with sweeps among them. If none of the calls, made
without the sweeps, is a swap under the version of a record that has expired
by then, then all are answered as without the sweeps. An expired record is
absent for a read and a put, swept or not; a swap under its version replaces
it before a sweep and is refused after. -/
theorem sweeping_unseen (past calls : List (UInt64 × Call))
    (ordered : (calls.map (·.1)).Pairwise (· ≤ ·))
    (dead : (empty.after past).NeverRevives (unswept calls)) :
    asked ((empty.after past).journal calls)
      = (empty.after past).journal (unswept calls)
    ∧ ∀ now key r, (empty.after past).find? key = some r →
      r.expiresAt ≤ now →
      let s := empty.after past
      let t := s.purge now
      s.get now key = none ∧ t.get now key = none
      ∧ ∀ value expiresAt,
        (s.putIfAbsent now key value expiresAt).1
          = .stored (s.lastVersion + 1)
        ∧ (t.putIfAbsent now key value expiresAt).1
          = .stored (s.lastVersion + 1)
        ∧ (s.compareAndSwap key r.version value expiresAt).1
          = .swapped (s.lastVersion + 1)
        ∧ (t.compareAndSwap key r.version value expiresAt).1 = .mismatch := by
  have hdistinct := distinct_after distinct_empty past
  constructor
  · have hstart : Swept 0 (empty.after past) (empty.after past) :=
      .refl hdistinct
    refine hstart.journal calls ?_ dead
    exact List.pairwise_cons.mpr ⟨fun _ _ => UInt64.zero_le, ordered⟩
  · intro now key r hr hdead s t
    have hswept : Swept now s t := (Swept.refl hdistinct).purge
    have hgone : t.find? key = none := by
      rw [find?_purge hdistinct, hr]
      exact Option.filter_some_neg (Record.isLive_eq_false.mpr hdead)
    obtain ⟨hget, hput⟩ := expired_absent hr hdead
    refine ⟨hget, ?_, fun value expiresAt => ⟨hput value expiresAt, ?_,
      compareAndSwap_of_version hr value expiresAt, ?_⟩⟩
    · exact (hswept.answer (q := .get key) id).1.trans hget
    · rw [(hswept.putIfAbsent key value expiresAt).1]
      exact hput value expiresAt
    · unfold compareAndSwap
      rw [hgone]

namespace Sample

open Store.Sample

/-- A record that has expired at 20. -/
def written : List (UInt64 × Call) := [(0, .ask (.put key [1] 10))]

/-- The record is swapped in time, expires and is swept, and another takes
its place. -/
def swapped : List (UInt64 × Call) :=
  [(5, .purge), (9, .ask (.swap key 1 [2] 15)), (15, .purge),
    (20, .ask (.get key)), (20, .ask (.swap key 1 [3] 90)),
    (20, .ask (.put key [4] 30)), (20, .purge), (25, .ask (.get key))]

end Sample

theorem sweeping_unseen_swapped :
    (asked ((empty.after Sample.written).journal Sample.swapped)).map
        Receipt.shown?
      = [some (Sample.key, ⟨[2], 2⟩), none, none,
        some (Sample.key, ⟨[4], 3⟩), some (Sample.key, ⟨[4], 3⟩)] := by
  rw [(sweeping_unseen Sample.written Sample.swapped (by decide)
    (by decide +kernel)).1]
  decide +kernel

/-- A sweep is seen by a swap under the version of an expired record. The swap
is made if it comes before the sweep, and the key has a live value again. -/
theorem sweeping_seen :
    (¬∀ past calls : List (UInt64 × Call), (calls.map (·.1)).Pairwise (· ≤ ·) →
      asked ((empty.after past).journal calls)
        = (empty.after past).journal (unswept calls))
    ∧ (empty.after Sample.written).get 20 Sample.key = none
    ∧ ((empty.after Sample.written).after
        [(20, .ask (.swap Sample.key 1 [2] 90))]).get 20 Sample.key
      = some ⟨[2], 2⟩ := by
  refine ⟨fun h => ?_, by decide +kernel, by decide +kernel⟩
  have hshown := congrArg (List.map Receipt.shown?) (h Sample.written
    [(20, .purge), (20, .ask (.swap Sample.key 1 [2] 90))] (by decide))
  exact absurd hshown (by decide +kernel)

end MemoryStore

end OnceProxy.Store
