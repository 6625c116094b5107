/-
One key of a store at a time.

What the cache does under a key depends on what the store keeps under that
key, value and expiry, and on nothing else: not on the version, nor on what
else is there (`Kept.read`, `Kept.refresh`, `Kept.put`). It changes nothing
under any other key (`Overwrites`). Nothing is assumed of what is kept; it
may be no entry at all.

Versions are compared only within one dialogue, with what the same dialogue
has just read, which is why they make no difference.
-/
import OnceProxy.Proofs.Store.Entries

namespace OnceProxy.Store

-- ============================================================== contents

/-- What is kept under a key, but for the version. -/
structure Kept where
  value : Octets
  expiresAt : UInt64
  deriving DecidableEq

namespace Kept

def isLive (k : Kept) (now : UInt64) : Bool := now < k.expiresAt

/-- An entry as it is kept. -/
def ofEntry (e : Entry) : Kept := ⟨e.encode, e.expiresAt⟩

/-- The live entry. -/
def read (now : UInt64) (k : Option Kept) :
    Except StoreError (Option Entry) :=
  match k.filter (·.isLive now) with
  | none => .ok none
  | some live =>
    match Entry.decode live.value with
    | .error e => .error (.codec e)
    | .ok entry => .ok (if entry.isExpiredAt now then none else some entry)

/-- The contents after the expiry of the live entry has been moved. -/
def refresh (now : UInt64) (duration : Nat) (k : Option Kept) : Option Kept :=
  match read now k with
  | .ok (some entry) =>
    let expiresAt := addSaturating now (millis duration)
    if expiresAt ≤ entry.expiresAt then k
    else some (.ofEntry (entry.withExpiry expiresAt))
  | _ => k

/-- What becomes of an entry that is to be stored, and the contents then. -/
def put (now : UInt64) (entry : Entry) (k : Option Kept) :
    Except StoreError PutOutcome × Option Kept :=
  match k.filter (·.isLive now) with
  | none => (.ok (.stored entry), some (.ofEntry entry))
  | some live =>
    match Entry.decode live.value with
    | .error e => (.error (.codec e), k)
    | .ok current =>
      if current.isExpiredAt now then
        (.ok (.stored entry), some (.ofEntry entry))
      else (.ok (.held current), k)

end Kept

namespace MemoryStore

def kept? (s : MemoryStore) (key : EntryKey) : Option Kept :=
  (s.find? key).map fun r => ⟨r.value, r.expiresAt⟩

/-- Only what is kept under one key is another. -/
structure Overwrites (s : MemoryStore) (key : EntryKey) (k : Option Kept)
    (t : MemoryStore) : Prop where
  kept : ∀ q, t.kept? q = if q = key then k else s.kept? q
  distinct : s.Distinct → t.Distinct

theorem overwrites_refl (s : MemoryStore) (key : EntryKey) :
    s.Overwrites key (s.kept? key) s := by
  refine ⟨fun q => ?_, id⟩
  by_cases hq : q = key
  · rw [if_pos hq, hq]
  · rw [if_neg hq]

theorem overwrites_write (s : MemoryStore) (key : EntryKey) (value : Octets)
    (expiresAt : UInt64) :
    s.Overwrites key (some ⟨value, expiresAt⟩)
      (s.write key value expiresAt) := by
  refine ⟨fun q => ?_, fun h => distinct_write h ..⟩
  unfold kept?
  rw [find?_write]
  by_cases hq : q = key
  · rw [if_pos hq, if_pos hq]
    rfl
  · rw [if_neg hq, if_neg hq]

/-- What is kept is live as long as its record. -/
theorem filter_kept (r : Record) (now : UInt64) :
    (some (⟨r.value, r.expiresAt⟩ : Kept)).filter (·.isLive now)
      = ((some r).filter (·.isLive now)).map
          fun r => ⟨r.value, r.expiresAt⟩ := by
  have hsame : Kept.isLive ⟨r.value, r.expiresAt⟩ now = r.isLive now := rfl
  cases hr : r.isLive now <;> simp [Option.filter_some, hsame, hr]

/-- A purge drops what has expired. -/
theorem kept?_purge {s : MemoryStore} (h : s.Distinct) (now : UInt64)
    (key : EntryKey) :
    (s.purge now).kept? key = (s.kept? key).filter (·.isLive now) := by
  unfold kept?
  rw [find?_purge h]
  cases s.find? key with
  | none => rfl
  | some r => exact (filter_kept r now).symm

/-- The live record of a key, and what is kept in it. -/
theorem live_or_none (s : MemoryStore) (now : UInt64) (key : EntryKey) :
    ((s.find? key).filter (·.isLive now) = none
      ∧ (s.kept? key).filter (·.isLive now) = none)
    ∨ ∃ r, s.find? key = some r
      ∧ (s.find? key).filter (·.isLive now) = some r
      ∧ (s.kept? key).filter (·.isLive now) = some ⟨r.value, r.expiresAt⟩ := by
  unfold kept?
  cases s.find? key with
  | none => exact .inl ⟨rfl, rfl⟩
  | some r =>
      rw [Option.map_some, filter_kept]
      cases hr : r.isLive now with
      | true => exact .inr ⟨r, rfl, by simp [Option.filter_some, hr]⟩
      | false => exact .inl (by simp [Option.filter_some, hr])

end MemoryStore

-- ============================================================= dialogues

namespace Cache

open Dialogue MemoryStore

variable (s : MemoryStore) (now : UInt64) (key : EntryKey) (m : Metrics)

theorem run_getVersioned_kept :
    (getVersioned key).run backend now (s, m)
      = ((Kept.read now (s.kept? key)).map fun found => found.map fun e =>
          ⟨e, ((s.find? key).map (·.version)).getD 0⟩, (s, m)) := by
  unfold getVersioned Kept.read
  rw [run_bind, run_query_get]
  unfold MemoryStore.get
  rcases s.live_or_none now key with ⟨hnone, hkept⟩ | ⟨r, hr, hlive, hkept⟩
  · rw [hnone, hkept]
    rfl
  · rw [hlive, hkept, hr]
    show (decoded r.value >>= _).run backend now (s, m) = _
    rw [run_bind]
    unfold decoded
    cases hd : Entry.decode r.value with
    | error e => simp only [hd]; rfl
    | ok e =>
        simp only [hd]
        show (Dialogue.now >>= _).run backend now (s, m) = _
        rw [run_bind, run_now]
        cases hexp : e.isExpiredAt now with
        | true => simp only [hexp, if_true]; rfl
        | false => simp only [hexp, Bool.false_eq_true, if_false]; rfl

/-- Reading tells the live entry, and changes nothing. -/
theorem run_get_kept :
    (get key).run backend now (s, m)
      = (Kept.read now (s.kept? key), (s, m)) := by
  unfold get
  rw [run_bind, run_getVersioned_kept]
  cases Kept.read now (s.kept? key) with
  | error e => rfl
  | ok found =>
      cases found with
      | none => rfl
      | some e => rfl

/-- A swap against the version that the record has goes through. -/
theorem swap_current {r : Record} (hr : s.find? key = some r) (e : Entry) :
    ∃ v t, s.compareAndSwap key r.version e.encode e.expiresAt
        = (.swapped v, t)
      ∧ s.Overwrites key (some (.ofEntry e)) t := by
  refine ⟨s.lastVersion + 1, s.write key e.encode e.expiresAt, ?_,
    s.overwrites_write key e.encode e.expiresAt⟩
  unfold MemoryStore.compareAndSwap
  simp only [hr, if_true]
  rfl

/-- Moving the expiry of a live entry goes through. -/
theorem run_refresh_kept (duration : Nat) :
    ∃ t, (refresh key duration).run backend now (s, m)
        = ((Kept.read now (s.kept? key)).map fun found =>
            found.map fun _ => .swapped, (t, m))
      ∧ s.Overwrites key (Kept.refresh now duration (s.kept? key)) t := by
  unfold refresh Kept.refresh
  rw [run_bind, run_getVersioned_kept]
  have hfind : ∀ e, Kept.read now (s.kept? key) = .ok (some e) →
      ∃ r, s.find? key = some r := by
    intro e he
    unfold Kept.read at he
    rcases s.live_or_none now key with ⟨-, hkept⟩ | ⟨r, hr, -, -⟩
    · rw [hkept] at he
      cases he
    · exact ⟨r, hr⟩
  cases hread : Kept.read now (s.kept? key) with
  | error e => exact ⟨s, rfl, s.overwrites_refl key⟩
  | ok found =>
      cases found with
      | none => exact ⟨s, rfl, s.overwrites_refl key⟩
      | some e =>
          obtain ⟨r, hr⟩ := hfind e hread
          rw [hr]
          show ∃ t, (Dialogue.now >>= _).run backend now (s, m) = _ ∧ _
          rw [run_bind, run_now]
          by_cases hle : addSaturating now (millis duration) ≤ e.expiresAt
          · simp only [if_pos hle]
            exact ⟨s, rfl, s.overwrites_refl key⟩
          · simp only [if_neg hle]
            obtain ⟨v, t, hswap, hover⟩ := swap_current s key hr
              (e.withExpiry (addSaturating now (millis duration)))
            refine ⟨t, ?_, hover⟩
            show (swap key r.version _ >>= _).run backend now (s, m) = _
            unfold swap
            rw [run_bind, run_bind, run_query_swap, hswap]
            rfl

/-- The first attempt at a put decides it. -/
theorem run_putWith_kept (e : Entry) (attempts : Nat) :
    ∃ t m', (putWith key e (attempts + 1)).run backend now (s, m)
        = ((Kept.put now e (s.kept? key)).1.map some, (t, m'))
      ∧ s.Overwrites key (Kept.put now e (s.kept? key)).2 t := by
  unfold putWith Kept.put
  rw [run_bind, run_query_put]
  unfold MemoryStore.putIfAbsent
  rcases s.live_or_none now key with ⟨hnone, hkept⟩ | ⟨r, hr, hlive, hkept⟩
  · rw [hnone, hkept]
    exact ⟨_, _, rfl, s.overwrites_write key e.encode e.expiresAt⟩
  · rw [hlive, hkept]
    show ∃ t m', (decoded r.value >>= _).run backend now (s, _) = _ ∧ _
    rw [run_bind]
    unfold decoded
    cases hd : Entry.decode r.value with
    | error fault =>
        simp only [hd]
        exact ⟨s, _, rfl, s.overwrites_refl key⟩
    | ok current =>
        simp only [hd]
        show ∃ t m', (Dialogue.now >>= _).run backend now (s, _) = _ ∧ _
        rw [run_bind, run_now]
        cases hexp : current.isExpiredAt now with
        | false =>
            simp only [hexp, Bool.not_false, Bool.false_eq_true, if_true,
              if_false]
            exact ⟨s, _, rfl, s.overwrites_refl key⟩
        | true =>
            -- the occupant's version has just been read
            obtain ⟨v, t, hswap, hover⟩ := swap_current s key hr e
            simp only [hexp, Bool.not_true, Bool.false_eq_true, if_true,
              if_false]
            rw [run_bind, run_query_swap,
              show r.versioned.version = r.version from rfl, hswap]
            exact ⟨t, _, rfl, hover⟩

theorem run_putIfAbsent_kept (e : Entry) :
    ∃ t m', (putIfAbsent key e).run backend now (s, m)
        = ((Kept.put now e (s.kept? key)).1, (t, m'))
      ∧ s.Overwrites key (Kept.put now e (s.kept? key)).2 t := by
  obtain ⟨t, m', hrun, hover⟩ := run_putWith_kept s now key m e 2
  refine ⟨t, m', ?_, hover⟩
  unfold putIfAbsent
  rw [run_bind, show maxReplaceAttempts = 2 + 1 from rfl, hrun]
  cases (Kept.put now e (s.kept? key)).1 with
  | error fault => rfl
  | ok outcome => rfl

end Cache

end OnceProxy.Store
