/-
Where versions run out.

As long as there is a next version, the store answers as if its counter had
no end (`answer?_of_room`). At the last one a call that would write dies: no
record has changed, and the counter stands at zero (`serve?_cases`). So the
journal of calls none of which dies is the one that `MemoryStore.journal`
gives, and its writes take consecutive numbers from the counter on
(`journal?_spec`); and none dies as long as the calls that may write are
fewer than the numbers that are left (`exists_journal?`).
-/
import OnceProxy.Proofs.Store.Updates
import OnceProxy.Store.Transcript

namespace OnceProxy.Store

/-- Queries that may write. -/
def Call.mayWrite : Call → Bool
  | .ask (.put ..) | .ask (.swap ..) => true
  | .ask (.get _) | .purge => false

/-- What tells of a write has written a record. -/
theorem wrote_told (q : Query) (answer : q.Answer) (now : UInt64) :
    (Exchange.told q answer).wrote
      = (Receipt.written? ⟨now, .ask q, answer⟩).isSome := by
  cases q with
  | get key => rfl
  | put key value expiresAt => exact answer.casesOn (fun _ => rfl) fun _ => rfl
  | swap key version value expiresAt => exact answer.casesOn (fun _ => rfl) rfl

namespace MemoryStore

/-- There is a next version. -/
def Room (s : MemoryStore) : Prop := s.lastVersion.toNat + 1 < 2 ^ 64

theorem Room.toNat_next {s : MemoryStore} (room : s.Room) :
    (s.lastVersion + 1).toNat = s.lastVersion.toNat + 1 := by
  rw [UInt64.toNat_add]
  exact Nat.mod_eq_of_lt room

/-- The counter goes from the last version to zero. -/
theorem next_of_not_room {s : MemoryStore} (last : ¬s.Room) :
    s.lastVersion + 1 = 0 := by
  have hlt := s.lastVersion.toNat_lt
  refine UInt64.toNat_inj.mp ?_
  rw [UInt64.toNat_add]
  show (s.lastVersion.toNat + 1) % 2 ^ 64 = 0
  unfold Room at last
  omega

-- ================================================================= writes

variable {s : MemoryStore} {calls : List (UInt64 × Call)}

theorem nextVersion?_of_room (room : s.Room) :
    s.nextVersion? = (some (s.lastVersion + 1), { s with lastVersion := s.lastVersion + 1 }) :=
  congrArg (·, _) (if_pos room)

theorem nextVersion?_of_not_room (last : ¬s.Room) :
    s.nextVersion? = (none, { s with lastVersion := 0 }) := by
  rw [← next_of_not_room last]
  exact congrArg (·, _) (if_neg last)

theorem write?_of_room (room : s.Room) (key : EntryKey) (value : Octets)
    (expiresAt : UInt64) :
    s.write? key value expiresAt
      = (some (s.lastVersion + 1), s.write key value expiresAt) := by
  rw [write?, nextVersion?_of_room room]
  rfl

theorem write?_of_not_room (last : ¬s.Room) (key : EntryKey) (value : Octets)
    (expiresAt : UInt64) :
    s.write? key value expiresAt = (none, { s with lastVersion := 0 }) := by
  rw [write?, nextVersion?_of_not_room last]

/-- A query is answered as if the counter had no end, and has a next version
if it writes; or it would write and dies of the last one. -/
theorem answer?_cases (s : MemoryStore) (q : Query) (now : UInt64) :
    (s.answer? q now = (some (s.answer q now).1, (s.answer q now).2)
      ∧ (s.Room ∨ (Exchange.told q (s.answer q now).1).wrote = false))
    ∨ (¬s.Room ∧ (Exchange.told q (s.answer q now).1).wrote = true
      ∧ s.answer? q now = (none, { s with lastVersion := 0 })) := by
  cases q with
  | get key => exact .inl ⟨rfl, .inr rfl⟩
  | put key value expiresAt =>
      dsimp only [answer?, answer, putIfAbsent?, putIfAbsent]
      cases (s.find? key).filter (·.isLive now) with
      | some r => exact .inl ⟨rfl, .inr rfl⟩
      | none =>
          by_cases room : s.Room
          · rw [write?_of_room room]
            exact .inl ⟨rfl, .inl room⟩
          · rw [write?_of_not_room room]
            exact .inr ⟨room, rfl, rfl⟩
  | swap key version value expiresAt =>
      dsimp only [answer?, answer, compareAndSwap?, compareAndSwap]
      cases s.find? key with
      | none => exact .inl ⟨rfl, .inr rfl⟩
      | some r =>
          dsimp only
          split
          · by_cases room : s.Room
            · rw [write?_of_room room]
              exact .inl ⟨rfl, .inl room⟩
            · rw [write?_of_not_room room]
              exact .inr ⟨room, rfl, rfl⟩
          · exact .inl ⟨rfl, .inr rfl⟩

/-- As long as there is a next version, no query dies. -/
theorem answer?_of_room (room : s.Room) (q : Query) (now : UInt64) :
    s.answer? q now = (some (s.answer q now).1, (s.answer q now).2) := by
  rcases s.answer?_cases q now with ⟨hanswer, -⟩ | ⟨hfull, -⟩
  · exact hanswer
  · exact absurd room hfull

/-- A call is served as if the counter had no end, and has a next version if
it writes; or it may write and dies of the last one. -/
theorem serve?_cases (s : MemoryStore) (now : UInt64) (c : Call) :
    (s.serve? now c = (some (s.serve now c).1, (s.serve now c).2)
      ∧ (s.Room ∨ Receipt.written? ⟨now, c, (s.serve now c).1⟩ = none))
    ∨ (c.mayWrite = true ∧ ¬s.Room
      ∧ s.serve? now c = (none, { s with lastVersion := 0 })) := by
  cases c with
  | purge => exact .inl ⟨rfl, .inr rfl⟩
  | ask q =>
      rcases s.answer?_cases q now with ⟨hanswer, room⟩ | ⟨hfull, hwrote, hdies⟩
      · refine .inl ⟨hanswer, room.imp_right fun hidle => ?_⟩
        rw [wrote_told q _ now] at hidle
        exact Option.isNone_iff_eq_none.mp
          (Option.isSome_eq_false_iff.mp hidle)
      · refine .inr ⟨?_, hfull, hdies⟩
        cases q with
        | get key => cases hwrote
        | put | swap => rfl

-- =============================================================== journals

/-- A call writes nothing and leaves the counter where it is, or it may write
and puts a record under the number that follows. -/
theorem Effect.counter {t : MemoryStore} {x : Receipt} (h : Effect s x t) :
    (x.written? = none ∧ t.lastVersion = s.lastVersion)
    ∨ ∃ p, x.written? = some p ∧ x.call.mayWrite = true
      ∧ p.2.version = s.lastVersion + 1 ∧ t.lastVersion = p.2.version := by
  cases h with
  | read _ idle => exact .inl ⟨idle, rfl⟩
  | purged _ idle => exact .inl ⟨idle, rfl⟩
  | wrote key r write next =>
      refine .inr ⟨(key, r), write, ?_, next, next.symm⟩
      rcases x with ⟨now, (_ | _ | _) | _, answer⟩
      · cases write
      · rfl
      · rfl
      · cases write

/-- An answer moves the counter on if it tells of a write. -/
theorem toNat_lastVersion_answer {q : Query} {now : UInt64}
    (room : s.Room ∨ (Exchange.told q (s.answer q now).1).wrote = false) :
    (s.answer q now).2.lastVersion.toNat
      = s.lastVersion.toNat
        + (Exchange.told q (s.answer q now).1).wrote.toNat := by
  rw [wrote_told q _ now] at room ⊢
  rcases (s.serve_effect now (.ask q)).1.counter with ⟨hidle, hkept⟩ |
    ⟨p, hwrite, -, hnext, hkept⟩
  · rw [show Receipt.written? ⟨now, .ask q, (s.answer q now).1⟩ = none from hidle]
    exact congrArg UInt64.toNat hkept
  · rw [show Receipt.written? ⟨now, .ask q, (s.answer q now).1⟩ = some p
      from hwrite] at room ⊢
    have hroom : s.Room := room.resolve_right nofun
    rw [show (s.answer q now).2.lastVersion = s.lastVersion + 1
      from hkept.trans hnext, hroom.toNat_next]
    rfl

/-- A journal begins with the answer to its first call. -/
theorem journal?_cons {now : UInt64} {c : Call} {journal : List Receipt}
    (h : s.journal? ((now, c) :: calls) = some journal) :
    ∃ rest, s.serve? now c = (some (s.serve now c).1, (s.serve now c).2)
      ∧ (s.Room ∨ Receipt.written? ⟨now, c, (s.serve now c).1⟩ = none)
      ∧ (s.serve now c).2.journal? calls = some rest
      ∧ journal = ⟨now, c, (s.serve now c).1⟩ :: rest := by
  rcases s.serve?_cases now c with ⟨hserve, room⟩ | ⟨-, -, hdies⟩
  · simp only [journal?, hserve, Option.bind_eq_bind, Option.bind_some] at h
    obtain ⟨rest, hrest, hjournal⟩ := Option.bind_eq_some_iff.mp h
    exact ⟨rest, hserve, room, hrest, (Option.some.inj hjournal).symm⟩
  · simp only [journal?, hdies, Option.bind_eq_bind, Option.bind_none] at h
    cases h

/-- Where no call dies, the journal is that of a counter without end, and its
writes take consecutive numbers from the counter on. -/
theorem journal?_spec {journal : List Receipt}
    (h : s.journal? calls = some journal) :
    journal = s.journal calls
      ∧ (writes journal).map (·.2.version.toNat)
        = List.range' (s.lastVersion.toNat + 1) (writes journal).length := by
  induction calls generalizing s journal with
  | nil =>
      cases h
      exact ⟨rfl, rfl⟩
  | cons y calls ih =>
      obtain ⟨now, c⟩ := y
      obtain ⟨rest, -, room, hrest, rfl⟩ := journal?_cons h
      obtain ⟨hsame, hnumbers⟩ := ih hrest
      refine ⟨by rw [hsame]; rfl, ?_⟩
      unfold writes at hnumbers ⊢
      rcases (s.serve_effect now c).1.counter with ⟨hidle, hkept⟩ |
        ⟨p, hwrite, -, hnext, hkept⟩
      · rw [List.filterMap_cons_none hidle, ← hkept]
        exact hnumbers
      · have hroom : s.Room := room.resolve_right (by simp [hwrite])
        rw [hkept, hnext, hroom.toNat_next] at hnumbers
        rw [List.filterMap_cons_some hwrite, List.map_cons, List.length_cons,
          List.range'_succ, hnumbers, hnext, hroom.toNat_next]

/-- No call dies as long as versions are left for all that may write. -/
theorem exists_journal?
    (room : s.lastVersion.toNat + calls.countP (·.2.mayWrite) < 2 ^ 64) :
    ∃ journal, s.journal? calls = some journal := by
  induction calls generalizing s with
  | nil => exact ⟨[], rfl⟩
  | cons y calls ih =>
      obtain ⟨now, c⟩ := y
      rw [List.countP_cons] at room
      rcases s.serve?_cases now c with ⟨hserve, -⟩ | ⟨hmay, hfull, -⟩
      · have hnext : (s.serve now c).2.lastVersion.toNat
            + calls.countP (·.2.mayWrite) < 2 ^ 64 := by
          rcases (s.serve_effect now c).1.counter with ⟨-, hkept⟩ |
            ⟨p, -, hmay, hversion, hkept⟩
          · rw [hkept]
            omega
          · rw [if_pos hmay] at room
            have hroom : s.Room := by
              unfold Room
              omega
            rw [hkept, hversion, hroom.toNat_next]
            omega
        obtain ⟨rest, hrest⟩ := ih hnext
        refine ⟨⟨now, c, (s.serve now c).1⟩ :: rest, ?_⟩
        simp [journal?, hserve, hrest]
      · rw [if_pos hmay] at room
        refine absurd ?_ hfull
        unfold Room
        omega

end MemoryStore

end OnceProxy.Store
