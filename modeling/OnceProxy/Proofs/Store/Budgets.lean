/-
How often a dialogue may write.

`WritesAtMost` bounds the answers that tell of a write, along the dialogue
and whatever the answers are, so the bounds of two dialogues add up where one
goes on with the other. A write ends every operation of the cache, which
therefore writes once (`writesAtMost_dialogue`).

As long as the store has versions for so many writes, a run does not notice
that they may run out: it gives what it would give if the counter had no end,
and the counter moves on by no more than the bound (`run?_of_writesAtMost`).
-/
import OnceProxy.Proofs.Store.Checked
import OnceProxy.Store.Operation

namespace OnceProxy.Store

namespace Dialogue

variable {α β : Type} {n : Nat}

/-- However it is answered, a dialogue writes at most so many times. -/
def WritesAtMost : Dialogue α → Nat → Prop
  | .done _, _ | .fail _, _ => True
  | .clock next, n => ∀ now, (next now).WritesAtMost n
  | .ask q next, n => ∀ answer,
    (Exchange.told q answer).wrote.toNat ≤ n
      ∧ (next answer).WritesAtMost (n - (Exchange.told q answer).wrote.toNat)

namespace WritesAtMost

variable {d : Dialogue α}

theorem mono {m : Nat} (h : d.WritesAtMost n) (hle : n ≤ m) :
    d.WritesAtMost m := by
  induction d generalizing n m with
  | done a | fail e => trivial
  | clock next ih => exact fun now => ih now (h now) hle
  | ask q next ih =>
      intro answer
      obtain ⟨hlast, hrest⟩ := h answer
      exact ⟨Nat.le_trans hlast hle, ih answer hrest (Nat.sub_le_sub_right hle _)⟩

/-- The bounds add up. -/
theorem bind {f : α → Dialogue β} {m : Nat} (h : d.WritesAtMost n)
    (hf : ∀ a, (f a).WritesAtMost m) : (d >>= f).WritesAtMost (n + m) := by
  show (d.bind f).WritesAtMost (n + m)
  induction d generalizing n with
  | done a => exact (hf a).mono (Nat.le_add_left m n)
  | fail e => trivial
  | clock next ih => exact fun now => ih now (h now)
  | ask q next ih =>
      intro answer
      obtain ⟨hlast, hrest⟩ := h answer
      refine ⟨Nat.le_add_right_of_le hlast, ?_⟩
      rw [Nat.sub_add_comm hlast]
      exact ih answer hrest

theorem ite {c : Prop} [Decidable c] {e : Dialogue α}
    (hd : d.WritesAtMost n) (he : e.WritesAtMost n) :
    (if c then d else e).WritesAtMost n := by
  split
  · exact hd
  · exact he

end WritesAtMost

-- ================================================================== runs

/-- As long as there are versions for all that it may write, a dialogue runs
as if the counter had no end. -/
theorem run?_of_writesAtMost {d : Dialogue α} (h : d.WritesAtMost n)
    {s : MemoryStore} (room : s.lastVersion.toNat + n < 2 ^ 64) (now : UInt64)
    (m : Metrics) :
    d.run? now s
        = (some (d.run MemoryStore.backend now (s, m)).1,
          (d.run MemoryStore.backend now (s, m)).2.1)
      ∧ (d.run MemoryStore.backend now (s, m)).2.1.lastVersion.toNat
        ≤ s.lastVersion.toNat + n := by
  induction d generalizing n s m with
  | done a | fail e => exact ⟨rfl, Nat.le_add_right _ n⟩
  | clock next ih => exact ih now (h now) room m
  | ask q next ih =>
      obtain ⟨hlast, hrest⟩ := h (s.answer q now).1
      rcases s.answer?_cases q now with ⟨hanswer, hroom⟩ | ⟨hfull, hwrote, -⟩
      · have hcounter := MemoryStore.toNat_lastVersion_answer hroom
        unfold run? run
        rw [hanswer]
        have hnext := fun m => ih (s.answer q now).1 hrest
          (show (s.answer q now).2.lastVersion.toNat + _ < 2 ^ 64 by omega) m
        refine ⟨(hnext _).1, Nat.le_trans (hnext _).2 ?_⟩
        omega
      · refine absurd ?_ hfull
        rw [hwrote] at hlast
        show s.lastVersion.toNat + 1 < 2 ^ 64
        exact Nat.lt_of_le_of_lt (Nat.add_le_add_left hlast _) room

end Dialogue

-- ============================================================= operations

open Dialogue Cache

theorem Cache.writesAtMost_decoded (b : Octets) : (decoded b).WritesAtMost 0 := by
  unfold decoded
  cases Entry.decode b <;> trivial

/-- Reading writes nothing. -/
theorem Cache.writesAtMost_getVersioned (key : EntryKey) :
    (getVersioned key).WritesAtMost 0 := by
  rintro (_ | raw)
  · exact ⟨Nat.le_refl 0, trivial⟩
  · refine ⟨Nat.le_refl 0, ?_⟩
    show WritesAtMost (decoded raw.value >>= _) (0 + 0)
    exact (writesAtMost_decoded _).bind fun _ _ => .ite trivial trivial

/-- A swap writes or does not. -/
theorem Cache.writesAtMost_swap (key : EntryKey) (version : UInt64) (entry : Entry) :
    (swap key version entry).WritesAtMost 1 := by
  rintro (_ | _)
  · exact ⟨Nat.le_refl 1, trivial⟩
  · exact ⟨Nat.zero_le 1, trivial⟩

/-- A write ends the rounds. -/
theorem Cache.writesAtMost_putWith (key : EntryKey) (entry : Entry) (n : Nat) :
    (putWith key entry n).WritesAtMost 1 := by
  induction n with
  | zero => trivial
  | succ n ih =>
      rintro (_ | occupant)
      · exact ⟨Nat.le_refl 1, trivial⟩
      · refine ⟨Nat.zero_le 1, ?_⟩
        show WritesAtMost (decoded occupant.value >>= _) (0 + 1)
        refine (writesAtMost_decoded _).bind fun _ _ => .ite trivial ?_
        rintro (_ | _)
        · exact ⟨Nat.le_refl 1, trivial⟩
        · exact ⟨Nat.zero_le 1, ih⟩

/-- An operation of the cache writes at most once. -/
theorem Operation.writesAtMost_dialogue (o : Operation) :
    o.dialogue.WritesAtMost 1 := by
  cases o with
  | get key =>
      exact .bind (n := 0) (m := 1) (writesAtMost_getVersioned key)
        fun _ => trivial
  | getVersioned key => exact (writesAtMost_getVersioned key).mono (Nat.zero_le 1)
  | putIfAbsent key entry =>
      refine .bind (n := 1) (m := 0) (writesAtMost_putWith key entry _) fun x => ?_
      cases x <;> trivial
  | compareAndSwap key version entry =>
      refine .bind (n := 0) (m := 1) (writesAtMost_getVersioned key) fun x => ?_
      cases x with
      | none => trivial
      | some current =>
          exact .ite trivial (.ite trivial (writesAtMost_swap _ _ _))
  | refresh key duration =>
      refine .bind (n := 0) (m := 1) (writesAtMost_getVersioned key) fun x => ?_
      cases x with
      | none => trivial
      | some current =>
          refine fun now => .ite trivial ?_
          exact .bind (n := 1) (m := 0) (writesAtMost_swap _ _ _) fun _ => trivial

end OnceProxy.Store
