/-
Stored results do not change, whoever works on the store at the same time.

What is left of each operation under way respects the store it will find
(`Gathering.Orderly`): an operation does so when it begins, one that takes
a step does so afterwards, and one that waits does so at every later store.
So every call of a run is harmless, as long as the versions suffice, and
they suffice for fewer than 2^64 writes since each takes one.
-/
import OnceProxy.Proofs.Store.Clients
import OnceProxy.Proofs.Store.Interference

namespace OnceProxy.Store

open MemoryStore

-- ================================================================ steps

/-- The operation that an action begins fits into memory, and gives no
earlier expiry where expiries are to grow only. -/
def Action.Permits (grows : Prop) : Action → Prop
  | .begin o => o.Fits
      ∧ ∀ key version e, o = .compareAndSwap key version e → ¬grows
  | _ => True

/-- An answer takes one version or none. -/
theorem lastVersion_answer (q : Query) (now : UInt64) (s : MemoryStore) :
    (s.answer q now).2.lastVersion = s.lastVersion
      ∨ (s.answer q now).2.lastVersion = s.lastVersion + 1 := by
  cases q with
  | get key => exact .inl rfl
  | put key value expiresAt =>
      show (s.putIfAbsent now key value expiresAt).2.lastVersion = _
        ∨ (s.putIfAbsent now key value expiresAt).2.lastVersion = _
      unfold MemoryStore.putIfAbsent
      split
      · exact .inl rfl
      · exact .inr rfl
  | swap key version value expiresAt =>
      show (s.compareAndSwap key version value expiresAt).2.lastVersion = _
        ∨ (s.compareAndSwap key version value expiresAt).2.lastVersion = _
      unfold MemoryStore.compareAndSwap
      split
      · split
        · exact .inr rfl
        · exact .inl rfl
      · exact .inl rfl

theorem Dialogue.lastVersion_step {d rest : Dialogue α} {now : UInt64}
    {s t : MemoryStore} (hstep : d.step now s = some (rest, t)) :
    t.lastVersion = s.lastVersion ∨ t.lastVersion = s.lastVersion + 1 := by
  cases d with
  | done a => cases hstep
  | fail e => cases hstep
  | clock next =>
      cases hstep
      exact .inl rfl
  | ask q next =>
      cases hstep
      exact lastVersion_answer q now s

namespace Gathering

variable {grows : Prop} {g h : Gathering} {a : Action}

theorem now_le_step (hstep : g.step a = some h) : g.now ≤ h.now := by
  cases a with
  | begin o =>
      cases hstep
      exact UInt64.le_refl _
  | proceed i =>
      obtain ⟨c, rest, -, -, hh⟩ := step_proceed hstep
      rw [hh]
      exact UInt64.le_refl _
  | sweep =>
      cases hstep
      exact UInt64.le_refl _
  | clock now =>
      obtain ⟨hle, rfl⟩ := step_clock hstep
      exact hle

/-- An action takes one version or none. -/
theorem lastVersion_step (hstep : g.step a = some h) :
    h.store.lastVersion = g.store.lastVersion
      ∨ h.store.lastVersion = g.store.lastVersion + 1 := by
  cases a with
  | begin o =>
      cases hstep
      exact .inl rfl
  | proceed i =>
      obtain ⟨c, rest, -, hrest, -⟩ := step_proceed hstep
      exact Dialogue.lastVersion_step hrest
  | sweep =>
      cases hstep
      exact .inl rfl
  | clock now =>
      obtain ⟨-, rfl⟩ := step_clock hstep
      exact .inl rfl

/-- The writes of a first action and of those behind it. -/
theorem writes_cons (hstep : g.step a = some h) (actions : List Action) :
    g.writes (a :: actions) = g.writes [a] + h.writes actions := by
  simp only [writes, hstep, Nat.add_zero]

/-- Where there is room for the writes, an action takes as many versions as
it writes. -/
theorem lastVersion_of_room (hstep : g.step a = some h)
    (room : g.store.lastVersion.toNat + g.writes [a] < 2 ^ 64) :
    h.store.lastVersion.toNat
      = g.store.lastVersion.toNat + g.writes [a] := by
  have hwrites : g.writes [a]
      = if h.store.lastVersion = g.store.lastVersion then 0 else 1 := by
    simp only [writes, hstep, Nat.add_zero]
  rcases lastVersion_step hstep with hsame | hnext
  · rw [hwrites, if_pos hsame, hsame]
    rfl
  · have hne : h.store.lastVersion ≠ g.store.lastVersion := by
      rw [hnext]
      intro heq
      have := congrArg UInt64.toNat heq
      rw [UInt64.toNat_add] at this
      have hlt := g.store.lastVersion.toNat_lt
      have hone : (1 : UInt64).toNat = 1 := rfl
      omega
    rw [hwrites, if_neg hne] at room ⊢
    rw [hnext, UInt64.toNat_add]
    exact Nat.mod_eq_of_lt room

-- ============================================================ invariant

/-- The store holds entries under versions that were given out, and what is
left of each operation is harmless. -/
structure Orderly (grows : Prop) (g : Gathering) : Prop where
  numbered : g.store.Numbered
  clients : ∀ c ∈ g.clients,
    c.rest.Respects grows (fun _ _ => True) g.now g.store

theorem orderly_start (grows : Prop) (now : UInt64) :
    (start now).Orderly grows :=
  ⟨numbered_empty, fun _ hc => absurd hc List.not_mem_nil⟩

/-- An action for which there is a version is harmless, and all that is
under way stays so. -/
theorem Orderly.step (hg : g.Orderly grows) (ha : a.Permits grows)
    (hstep : g.step a = some h)
    (room : g.store.lastVersion ≤ h.store.lastVersion) :
    Harmless grows g.now g.store h.store ∧ h.Orderly grows := by
  cases a with
  | begin o =>
      cases hstep
      refine ⟨.refl hg.numbered, hg.numbered, fun c hc => ?_⟩
      rcases List.mem_append.mp hc with hold | hnew
      · exact hg.clients c hold
      · rw [List.mem_singleton.mp hnew]
        exact Operation.respects_dialogue ha.1 ha.2 g.now g.store
  | proceed i =>
      obtain ⟨c, rest, hc, hrest, hh⟩ := step_proceed hstep
      obtain ⟨hharmless, hnext⟩ :=
        (hg.clients c (List.mem_of_getElem? hc)).step hg.numbered hrest room
      rw [hh]
      refine ⟨hharmless, hharmless.numbered, fun d hd => ?_⟩
      rcases List.mem_or_eq_of_mem_set hd with hother | hself
      · exact (hg.clients d hother).later (UInt64.le_refl _)
          hharmless.later
      · rw [hself]
        exact hnext
  | sweep =>
      cases hstep
      have hharmless : Harmless grows g.now g.store (g.store.purge g.now) :=
        .purge hg.numbered
      exact ⟨hharmless, hharmless.numbered, fun c hc =>
        (hg.clients c hc).later (UInt64.le_refl _) hharmless.later⟩
  | clock now =>
      obtain ⟨hle, rfl⟩ := step_clock hstep
      exact ⟨.refl hg.numbered, hg.numbered, fun c hc =>
        (hg.clients c hc).later hle (.refl _)⟩

-- ================================================================= runs

/-- What a run of harmless actions leaves, where there is room for its
writes. -/
theorem Orderly.run {actions : List Action} (hg : g.Orderly grows)
    (permitted : ∀ a ∈ actions, a.Permits grows)
    (room : g.store.lastVersion.toNat + g.writes actions < 2 ^ 64)
    (hrun : g.run actions = some h) :
    h.Orderly grows ∧ h.store.lastVersion.toNat
      = g.store.lastVersion.toNat + g.writes actions := by
  induction actions generalizing g with
  | nil =>
      cases hrun
      exact ⟨hg, rfl⟩
  | cons a actions ih =>
      rw [run_cons] at hrun
      obtain ⟨k, hstep, hrun⟩ := Option.bind_eq_some_iff.mp hrun
      rw [writes_cons hstep] at room ⊢
      have hlast := lastVersion_of_room hstep (by omega)
      have hk := (hg.step (permitted a (List.mem_cons_self ..)) hstep
        (UInt64.le_iff_toNat_le.mpr (by omega))).2
      obtain ⟨hh, hend⟩ := ih hk
        (fun b hb => permitted b (List.mem_cons_of_mem a hb)) (by omega) hrun
      exact ⟨hh, by omega⟩

/-- The writes of two runs, one behind the other. -/
theorem writes_append {before after : List Action}
    (hrun : g.run before = some h) :
    g.writes (before ++ after) = g.writes before + h.writes after := by
  induction before generalizing g with
  | nil =>
      cases hrun
      exact (Nat.zero_add _).symm
  | cons a before ih =>
      rw [run_cons] at hrun
      obtain ⟨k, hstep, hrun⟩ := Option.bind_eq_some_iff.mp hrun
      rw [List.cons_append, writes_cons hstep (before ++ after), ih hrun,
        writes_cons hstep before]
      omega

theorem now_le_run {actions : List Action} (hrun : g.run actions = some h) :
    g.now ≤ h.now := by
  induction actions generalizing g with
  | nil =>
      cases hrun
      exact UInt64.le_refl _
  | cons a actions ih =>
      rw [run_cons] at hrun
      obtain ⟨k, hstep, hrun⟩ := Option.bind_eq_some_iff.mp hrun
      exact UInt64.le_trans (now_le_step hstep) (ih hrun)

/-- A record that has not expired by the end of a run is there, with no
earlier expiry, if no client gives one. -/
theorem Orderly.expiry_grows {actions : List Action} (hg : g.Orderly True)
    (permitted : ∀ a ∈ actions, a.Permits True)
    (room : g.store.lastVersion.toNat + g.writes actions < 2 ^ 64)
    (hrun : g.run actions = some h) {key : EntryKey} {r : Record}
    (hr : g.store.find? key = some r) (hlive : h.now < r.expiresAt) :
    ∃ r', h.store.find? key = some r' ∧ r.expiresAt ≤ r'.expiresAt := by
  induction actions generalizing g r with
  | nil =>
      cases hrun
      exact ⟨r, hr, UInt64.le_refl _⟩
  | cons a actions ih =>
      have hclock := now_le_run hrun
      rw [run_cons] at hrun
      obtain ⟨k, hstep, hrun⟩ := Option.bind_eq_some_iff.mp hrun
      rw [writes_cons hstep] at room
      have hlast := lastVersion_of_room hstep (by omega)
      obtain ⟨hharmless, hk⟩ :=
        hg.step (permitted a (List.mem_cons_self ..)) hstep
          (UInt64.le_iff_toNat_le.mpr (by omega))
      rcases hharmless.keeps key r hr with hdead | ⟨r', hr', -, hgrows⟩
      · exact absurd (UInt64.lt_of_le_of_lt hclock hlive)
          (UInt64.not_lt.mpr hdead)
      · have hle := hgrows trivial
        obtain ⟨r'', hr'', hle'⟩ := ih hk
          (fun b hb => permitted b (List.mem_cons_of_mem a hb)) (by omega)
          hrun hr' (UInt64.lt_of_lt_of_le hlive hle)
        exact ⟨r'', hr'', UInt64.le_trans hle hle'⟩

-- ========================================================== the theorem

/-- Any number of clients work on a store that starts empty, with fewer than
2^64 writes. Whatever happens between the calls of their operations, an
action that finds a record leaves one of the same result in its place, which
differs at most in the expiry, unless the record has expired. If no client
swaps on its own account, a record's expiry never goes back before it is
past. -/
theorem stored_results_stay (now : UInt64) (actions : List Action)
    (fits : ∀ o, Action.begin o ∈ actions → o.Fits)
    (few : (start now).writes actions < 2 ^ 64) :
    (∀ before a after g h, actions = before ++ a :: after →
      (start now).run before = some g → g.step a = some h →
      ∀ key r, g.store.find? key = some r → r.expiresAt ≤ g.now
        ∨ ∃ r' e e', h.store.find? key = some r' ∧ r.Holds e ∧ r'.Holds e'
          ∧ e.sameResult e' = true ∧ e' = e.withExpiry e'.expiresAt)
    ∧ ((∀ key version e, Action.begin (.compareAndSwap key version e)
        ∉ actions) →
      ∀ before between after g h, actions = before ++ (between ++ after) →
        (start now).run before = some g → g.run between = some h →
        ∀ key r, g.store.find? key = some r → h.now < r.expiresAt →
          ∃ r', h.store.find? key = some r'
            ∧ r.expiresAt ≤ r'.expiresAt) := by
  have hzero : (start now).store.lastVersion.toNat = 0 := rfl
  constructor
  · intro before a after g h hsplit hbefore hstep key r hr
    have permitted : ∀ b ∈ actions, b.Permits False := by
      intro b hb
      cases b with
      | begin o => exact ⟨fits o hb, fun _ _ _ _ => id⟩
      | proceed | sweep | clock => trivial
    subst hsplit
    rw [writes_append hbefore, writes_cons hstep] at few
    obtain ⟨hg, hlast⟩ := (orderly_start False now).run
      (fun b hb => permitted b (List.mem_append_left _ hb)) (by omega) hbefore
    have hnext := lastVersion_of_room hstep (by omega)
    have hharmless := (hg.step
      (permitted a (List.mem_append_right _ (List.mem_cons_self ..))) hstep
      (UInt64.le_iff_toNat_le.mpr (by omega))).1
    rcases hharmless.keeps key r hr with
      hdead | ⟨r', hr', ⟨e, e', he, he', hsame⟩, -⟩
    · exact .inl hdead
    · exact .inr ⟨r', e, e', hr', he, he', hsame, Entry.sameResult_iff.mp hsame⟩
  · intro noSwaps before between after g h hsplit hbefore hbetween key r hr
      hlive
    have permitted : ∀ b ∈ actions, b.Permits True := by
      intro b hb
      cases b with
      | begin o =>
          refine ⟨fits o hb, fun key version e ho => ?_⟩
          subst ho
          exact absurd hb (noSwaps key version e)
      | proceed | sweep | clock => trivial
    subst hsplit
    rw [writes_append hbefore, writes_append hbetween] at few
    obtain ⟨hg, hlast⟩ := (orderly_start True now).run
      (fun b hb => permitted b (List.mem_append_left _ hb)) (by omega) hbefore
    exact hg.expiry_grows
      (fun b hb => permitted b
        (List.mem_append_right _ (List.mem_append_left _ hb)))
      (by omega) hbetween hr hlive

namespace Sample

open Store.Sample in
/-- Two clients have read the entry when the second moves its expiry; the
first comes too late. -/
def raced : List Action :=
  [.begin (.putIfAbsent key entry), .proceed 0, .begin (.refresh key 60000),
    .proceed 1, .proceed 1, .begin (.refresh key 90000), .proceed 2,
    .proceed 2, .proceed 2, .proceed 2, .clock 2000, .proceed 1, .proceed 1,
    .sweep]

end Sample

/-- The second client's swap replaces a record that has not expired. -/
theorem stored_results_stay_raced :
    ∃ g h r r' e e', (start 1000).run (Sample.raced.take 9) = some g
      ∧ g.step (.proceed 2) = some h
      ∧ g.store.find? Sample.key = some r ∧ g.now < r.expiresAt
      ∧ h.store.find? Sample.key = some r' ∧ r.version < r'.version
      ∧ r.Holds e ∧ r'.Holds e' ∧ e.sameResult e' = true := by
  have fits : ∀ o, Action.begin o ∈ Sample.raced → o.Fits := by
    intro o ho
    simp only [Sample.raced, List.mem_cons, List.not_mem_nil, reduceCtorEq,
      Action.begin.injEq, or_false, false_or] at ho
    rcases ho with rfl | rfl | rfl
    · exact show Sample.entry.Fits by decide
    · trivial
    · trivial
  have hbefore : ((start 1000).run (Sample.raced.take 9)).map
      (fun g => (g.now, g.store.find? Sample.key))
        = some (1000, some ⟨Sample.entry.encode, 1, 5000⟩) := by
    decide +kernel
  have hafter : (((start 1000).run (Sample.raced.take 9)).bind
      (·.step (.proceed 2))).map (·.store.find? Sample.key)
        = some (some ⟨(Sample.entry.withExpiry 91000).encode, 2, 91000⟩) := by
    decide +kernel
  obtain ⟨g, hg, hrecord⟩ := Option.map_eq_some_iff.mp hbefore
  obtain ⟨hnow, hfind⟩ := Prod.ext_iff.mp hrecord
  rw [hg] at hafter
  obtain ⟨h, hstep, hnew⟩ := Option.map_eq_some_iff.mp hafter
  rcases (stored_results_stay 1000 Sample.raced fits (by decide +kernel)).1
    (Sample.raced.take 9) (.proceed 2) (Sample.raced.drop 10) g h rfl hg hstep
    Sample.key _ hfind with hdead | ⟨r', e, e', hr', he, he', hsame, -⟩
  · rw [show g.now = 1000 from hnow] at hdead
    exact absurd hdead (by decide)
  · rw [hnew] at hr'
    cases hr'
    refine ⟨g, h, _, _, e, e', hg, hstep, hfind, ?_, hnew, by decide, he, he',
      hsame⟩
    rw [show g.now = 1000 from hnow]
    decide

end Gathering

end OnceProxy.Store
