/-
A restart through a snapshot cannot be told from outside.

A loaded store lacks what had expired when it was loaded, and counts its
versions anew. What the cache does under a key depends on neither: it
depends on what is kept there and has not expired, value and expiry. Stores
that agree on that (`Alike`) answer alike, and agree afterwards, as long as
no command tells or takes a version (`Alike.serve`). Time takes nothing from
their agreement, so it lasts for whole schedules (`Alike.carryOut`).

A store may have been reached by any calls at any instants; the operations
of any number of clients, step by step, come down to such calls
(`Gathering.run_store`).
-/
import OnceProxy.Proofs.Store.Immutability
import OnceProxy.Proofs.Store.OneKey
import OnceProxy.Proofs.Store.Snapshot
import OnceProxy.Proofs.Store.Updates
import OnceProxy.Store.ExpiringMap

namespace OnceProxy.Store

-- ============================================================== one key

namespace Kept

variable {now : UInt64} {k l : Option Kept}

/-- What is live later is live now. -/
theorem filter_later {later : UInt64} (hle : now ≤ later) (k : Option Kept) :
    (k.filter (·.isLive now)).filter (·.isLive later)
      = k.filter (·.isLive later) := by
  cases k with
  | none => rfl
  | some x =>
      by_cases hlive : later < x.expiresAt
      · have hnow := UInt64.lt_of_le_of_lt hle hlive
        simp [Option.filter_some, isLive, hlive, hnow]
      · by_cases hnow : now < x.expiresAt <;>
          simp [Option.filter_some, isLive, hlive, hnow]

/-- Reading sees what is live. -/
theorem read_alike (h : k.filter (·.isLive now) = l.filter (·.isLive now)) :
    read now k = read now l := by
  unfold read
  rw [h]

theorem refresh_alike (h : k.filter (·.isLive now) = l.filter (·.isLive now))
    (duration : Nat) :
    (refresh now duration k).filter (·.isLive now)
      = (refresh now duration l).filter (·.isLive now) := by
  unfold refresh
  rw [read_alike h]
  split
  · dsimp only
    split
    · exact h
    · rfl
  · exact h

theorem put_alike (h : k.filter (·.isLive now) = l.filter (·.isLive now))
    (entry : Entry) :
    (put now entry k).1 = (put now entry l).1
    ∧ (put now entry k).2.filter (·.isLive now)
      = (put now entry l).2.filter (·.isLive now) := by
  unfold put
  rw [← h]
  split
  · exact ⟨rfl, rfl⟩
  · split
    · exact ⟨rfl, h⟩
    · split
      · exact ⟨rfl, rfl⟩
      · exact ⟨rfl, h⟩

end Kept

-- ============================================================ two stores

/-- Two stores that keep the same live values, with the same expiries. -/
structure Alike (now : UInt64) (s t : MemoryStore) : Prop where
  left : s.Distinct
  right : t.Distinct
  live : ∀ key, (s.kept? key).filter (·.isLive now)
    = (t.kept? key).filter (·.isLive now)

/-- A command that neither tells nor takes a version. -/
def Command.Unversioned : Command → Prop
  | .perform (.getVersioned _) | .perform (.compareAndSwap ..) => False
  | _ => True

instance (c : Command) : Decidable c.Unversioned :=
  match c with
  | .perform (.getVersioned _) | .perform (.compareAndSwap ..) =>
    inferInstanceAs (Decidable False)
  | .perform (.get _) | .perform (.putIfAbsent ..) | .perform (.refresh ..)
  | .sweep => inferInstanceAs (Decidable True)

namespace Alike

variable {now : UInt64} {s t s' t' : MemoryStore}

theorem later (h : Alike now s t) {later : UInt64} (hle : now ≤ later) :
    Alike later s t := by
  refine ⟨h.left, h.right, fun key => ?_⟩
  rw [← Kept.filter_later hle, h.live key, Kept.filter_later hle]

/-- Stores stay alike if what one key keeps is replaced alike. -/
theorem overwrites (h : Alike now s t) {key : EntryKey} {k l : Option Kept}
    (hs : s.Overwrites key k s') (ht : t.Overwrites key l t')
    (hkl : k.filter (·.isLive now) = l.filter (·.isLive now)) :
    Alike now s' t' := by
  refine ⟨hs.distinct h.left, ht.distinct h.right, fun q => ?_⟩
  rw [hs.kept, ht.kept]
  split
  · exact hkl
  · exact h.live q

theorem purge (h : Alike now s t) : Alike now (s.purge now) (t.purge now) := by
  refine ⟨MemoryStore.distinct_purge h.left now,
    MemoryStore.distinct_purge h.right now, fun key => ?_⟩
  rw [MemoryStore.kept?_purge h.left, MemoryStore.kept?_purge h.right,
    h.live key]

/-- Stores that are alike answer alike, and stay so. -/
theorem serve (h : Alike now s t) {c : Command} (plain : c.Unversioned)
    (m m' : Metrics) :
    (Cache.serve now c (s, m)).1 = (Cache.serve now c (t, m')).1
    ∧ Alike now (Cache.serve now c (s, m)).2.1
      (Cache.serve now c (t, m')).2.1 := by
  cases c with
  | sweep => exact ⟨rfl, h.purge⟩
  | perform o =>
      cases o with
      | getVersioned key => exact plain.elim
      | compareAndSwap key version e => exact plain.elim
      | get key =>
          rw [show Cache.serve now (.perform (.get key)) (s, m) = _ from
              Cache.run_get_kept s now key m,
            show Cache.serve now (.perform (.get key)) (t, m') = _ from
              Cache.run_get_kept t now key m']
          exact ⟨Kept.read_alike (h.live key), h⟩
      | putIfAbsent key e =>
          obtain ⟨s', n, hs, hover⟩ := Cache.run_putIfAbsent_kept s now key m e
          obtain ⟨t', n', ht, hover'⟩ :=
            Cache.run_putIfAbsent_kept t now key m' e
          obtain ⟨hanswer, hkept⟩ := Kept.put_alike (h.live key) e
          rw [show Cache.serve now (.perform (.putIfAbsent key e)) (s, m) = _
              from hs,
            show Cache.serve now (.perform (.putIfAbsent key e)) (t, m') = _
              from ht]
          exact ⟨hanswer, h.overwrites hover hover' hkept⟩
      | refresh key duration =>
          obtain ⟨s', hs, hover⟩ :=
            Cache.run_refresh_kept s now key m duration
          obtain ⟨t', ht, hover'⟩ :=
            Cache.run_refresh_kept t now key m' duration
          have hkept := Kept.refresh_alike (h.live key) duration
          rw [show Cache.serve now (.perform (.refresh key duration)) (s, m) = _
              from hs,
            show Cache.serve now (.perform (.refresh key duration)) (t, m') = _
              from ht, Kept.read_alike (h.live key)]
          exact ⟨rfl, h.overwrites hover hover' hkept⟩

/-- Schedules of commands that begin at that instant or later are answered
alike. -/
theorem carryOut (h : Alike now s t) (schedule : List (UInt64 × Command))
    (plain : ∀ x ∈ schedule, x.2.Unversioned)
    (ordered : (now :: schedule.map (·.1)).Pairwise (· ≤ ·))
    (m m' : Metrics) :
    (Store.carryOut Cache.serve schedule (s, m)).1
      = (Store.carryOut Cache.serve schedule (t, m')).1 := by
  induction schedule generalizing now s t m m' with
  | nil => rfl
  | cons x schedule ih =>
      obtain ⟨instant, c⟩ := x
      obtain ⟨hnow, hordered⟩ := List.pairwise_cons.mp ordered
      obtain ⟨hanswer, halike⟩ := (h.later (hnow instant
        (List.mem_cons_self ..))).serve (plain _ (List.mem_cons_self ..)) m m'
      have hrest := ih halike
        (fun y hy => plain y (List.mem_cons_of_mem _ hy)) hordered
        (Cache.serve instant c (s, m)).2.2 (Cache.serve instant c (t, m')).2.2
      show (⟨c, (Cache.serve instant c (s, m)).1⟩ : Answered)
          :: (Store.carryOut Cache.serve schedule
            (Cache.serve instant c (s, m)).2).1
        = ⟨c, (Cache.serve instant c (t, m')).1⟩
          :: (Store.carryOut Cache.serve schedule
            (Cache.serve instant c (t, m')).2).1
      rw [hanswer]
      exact congrArg (_ :: ·) hrest

end Alike

-- =============================================================== restart

namespace MemoryStore

/-- A store is alike to the one that is loaded from its snapshot. -/
theorem load_save_alike {s : MemoryStore} (h : s.Fits) (hs : s.Distinct)
    {listed : List (EntryKey × Record)} (order : listed.Perm s.records)
    {saved loaded : UInt64} (hle : saved ≤ loaded) :
    ∃ t, load loaded (save { s with records := listed } saved) = .ok t
      ∧ Alike loaded t s := by
  obtain ⟨t, hload, ht, hfind⟩ := load_save h hs order hle
  refine ⟨t, hload, ht, hs, fun key => ?_⟩
  rw [← kept?_purge ht, ← kept?_purge hs]
  unfold kept?
  rw [find?_purge ht, find?_purge hs, hfind]
  -- what was filtered at loading is filtered again
  cases s.find? key with
  | none => rfl
  | some r => cases hr : r.isLive loaded <;> simp [Option.filter_some, hr]

end MemoryStore

namespace Gathering

/-- A step of a client is a call to the store, or none. -/
theorem step_store {g h : Gathering} {a : Action} (hstep : g.step a = some h) :
    ∃ calls, h.store = g.store.after calls := by
  cases a with
  | begin o =>
      cases hstep
      exact ⟨[], rfl⟩
  | proceed i =>
      obtain ⟨c, rest, -, hrest, -⟩ := step_proceed hstep
      generalize c.rest = d at hrest
      cases d with
      | done a | fail e => cases hrest
      | clock next =>
          exact ⟨[], (Prod.mk.inj (Option.some.inj hrest)).2.symm⟩
      | ask q next =>
          exact ⟨[(g.now, .ask q)],
            (Prod.mk.inj (Option.some.inj hrest)).2.symm⟩
  | sweep =>
      cases hstep
      exact ⟨[(g.now, .purge)], rfl⟩
  | clock now =>
      obtain ⟨-, rfl⟩ := step_clock hstep
      exact ⟨[], rfl⟩

/-- Whatever clients have done to a store, step by step, and however often it
was swept, comes down to single calls. -/
theorem run_store {actions : List Action} {g h : Gathering}
    (hrun : g.run actions = some h) :
    ∃ calls, h.store = g.store.after calls := by
  induction actions generalizing g with
  | nil =>
      cases hrun
      exact ⟨[], rfl⟩
  | cons a actions ih =>
      rw [run_cons] at hrun
      obtain ⟨f, hstep, hrest⟩ := Option.bind_eq_some_iff.mp hrun
      obtain ⟨first, hf⟩ := step_store hstep
      obtain ⟨calls, hh⟩ := ih hrest
      refine ⟨first ++ calls, ?_⟩
      rw [MemoryStore.after_append, hh, hf]

end Gathering

namespace MemoryStore

/-- A restart through a snapshot is invisible. Take a store that any calls at
any instants have left, saved at one instant with its records listed in any
order, and loaded at the same or a later instant. Loading succeeds, and any
commands that come from then on at instants that do not fall, readings, puts,
moved expiries and sweeps, are answered by the loaded store as by the
original. -/
theorem restart_invisible (past : List (UInt64 × Call))
    (fits : (empty.after past).Fits)
    {listed : List (EntryKey × Record)}
    (order : listed.Perm (empty.after past).records)
    {saved loaded : UInt64} (hle : saved ≤ loaded) :
    ∃ t, load loaded (save { empty.after past with records := listed } saved)
        = .ok t
      ∧ ∀ schedule : List (UInt64 × Command),
        (∀ x ∈ schedule, x.2.Unversioned) →
        (loaded :: schedule.map (·.1)).Pairwise (· ≤ ·) →
        ∀ m m' : Metrics,
          (carryOut Cache.serve schedule (t, m)).1
            = (carryOut Cache.serve schedule (empty.after past, m')).1 := by
  obtain ⟨t, hload, halike⟩ :=
    load_save_alike fits (distinct_after distinct_empty past) order hle
  exact ⟨t, hload, halike.carryOut⟩

namespace Sample

open Store.Sample

/-- The first entry expires between saving and loading. -/
def saves : List (UInt64 × Call) :=
  [(1000, .ask (.put key entry.encode entry.expiresAt)),
    (1000, .ask (.put otherKey other.encode other.expiresAt))]

/-- What is asked after the restart. -/
def resumed : List (UInt64 × Command) :=
  [(6500, .perform (.get key)), (6500, .perform (.putIfAbsent key other)),
    (6500, .sweep), (6600, .perform (.putIfAbsent otherKey entry)),
    (7000, .perform (.refresh otherKey 3000)), (9000, .perform (.get key)),
    (9000, .perform (.get otherKey))]

/-- What the readings among commands have told. -/
def readings (answers : List Answered) :
    List (EntryKey × Except StoreError (Option Entry)) :=
  answers.filterMap fun
    | ⟨.perform (.get key), found⟩ => some (key, found)
    | _ => none

end Sample

theorem restart_invisible_resumed :
    ∃ t, load 6000 (save { empty.after Sample.saves with
        records := (empty.after Sample.saves).records.reverse } 4000) = .ok t
      ∧ Sample.readings (carryOut Cache.serve Sample.resumed (t, .empty)).1
        = [(Sample.key, .ok none), (Sample.key, .ok none),
          (Sample.otherKey, .ok (some (Sample.other.withExpiry 10000)))] := by
  have fits : (empty.after Sample.saves).Fits :=
    ⟨by decide +kernel, by decide +kernel⟩
  have hle : (4000 : UInt64) ≤ 6000 := by decide
  obtain ⟨t, hload, hanswers⟩ :=
    restart_invisible Sample.saves fits (List.reverse_perm _) hle
  refine ⟨t, hload, ?_⟩
  rw [hanswers Sample.resumed (by decide) (by decide) .empty .empty]
  decide +kernel

end MemoryStore

end OnceProxy.Store
