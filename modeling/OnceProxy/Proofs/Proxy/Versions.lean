/-
Versions do not run out in a run.

An event lets the store give out one version at most (`Writing.counter`), so
after as many events as are asked for the counter has moved on by no more
than their number (`counter_after`). In a run of fewer events than there are
versions left, no write dies: whatever operation of the cache is begun at an
instant, the store with the checked counter runs it as `MemoryStore.backend`
does (`versions_suffice`).
-/
import OnceProxy.Proofs.Proxy.Run
import OnceProxy.Proofs.Store.Budgets

namespace OnceProxy.Proxy.System

open Store MemoryStore

/-- An event takes one version at most. -/
theorem Writing.counter {s : System MemoryStore} {e : Event}
    {store : MemoryStore} (h : Writing s e store) :
    store.lastVersion.toNat ≤ s.store.lastVersion.toNat + 1 := by
  have written : (s.store.lastVersion + 1).toNat
      ≤ s.store.lastVersion.toNat + 1 := by
    rw [UInt64.toNat_add]
    exact Nat.mod_le _ _
  cases h with
  | none | swept => exact Nat.le_succ _
  | refreshed site caller r found duration attempts live own =>
      rcases s.store.extend_cases s.now r.fingerprint.entryKey duration with
        hsame | ⟨e, expiry, -, -, hwrite⟩
      · rw [hsame]
        exact Nat.le_succ _
      · rw [hwrite]
        exact written
  | inserted => exact written

section Runs

variable {s₀ : System MemoryStore} {events : List Event}
  (fresh : s₀.Fresh) (fits : ∀ e ∈ events, e.Fits)

include fresh fits

/-- The counter moves on by no more than the number of events. -/
theorem counter_after {i : Nat} (hi : i ≤ events.length)
    {t : System MemoryStore} (ht : s₀.after? events i = some t) :
    t.store.lastVersion.toNat ≤ s₀.store.lastVersion.toNat + i := by
  refine move_induction fresh fits
    (P := fun n u =>
      u.store.lastVersion.toNat ≤ s₀.store.lastVersion.toNat + n)
    after?_zero (Nat.le_refl _) (fun n e u v _ _ _ _ _ hmove hu => ?_)
    (Nat.zero_le i) hi ht
  have hstep := hmove.writing.counter
  omega

/-- In a run of fewer events than there are versions left, no operation of
the cache dies. -/
theorem versions_suffice
    (room : s₀.store.lastVersion.toNat + events.length < 2 ^ 64) {i : Nat}
    (hi : i < events.length) {u : System MemoryStore}
    (hu : s₀.after? events i = some u) (o : Operation) (now : UInt64)
    (m : Metrics) :
    o.dialogue.run? now u.store
      = (some (o.dialogue.run MemoryStore.backend now (u.store, m)).1,
        (o.dialogue.run MemoryStore.backend now (u.store, m)).2.1) := by
  have hcounter := counter_after fresh fits (Nat.le_of_lt hi) hu
  exact (Dialogue.run?_of_writesAtMost o.writesAtMost_dialogue (by omega)
    now m).1

end Runs

end OnceProxy.Proxy.System
