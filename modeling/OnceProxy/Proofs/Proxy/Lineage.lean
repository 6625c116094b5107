/-
What a system may live through: events, other users of its store, restarts.

A system over the in-memory store is not alone in the world. Others reach
the store through the cache, and the whole may be shut down and started
again from a snapshot, under any policies and with any clock. `Passage` is
one such thing, and `Descends` any number of them, all the while something
holds of the system. Which operations others may ask for is left open.

# One result as long as it is live

Whatever happens, what a key held live it holds afterwards with the same
result, or it holds nothing (`Passage.sameResult`); a swap that somebody asks
for may shorten the life of an entry, and a restart may take it away, but
neither gives it another result. As long as a key has a live entry it is
therefore one result (`Descends.sameResult`), refreshed, saved and loaded as
often as one likes.

# Nothing from nowhere

In the other direction, what is held was held before with the same result
(`Inherits`), unless a leader has just stored it or somebody put it
(`Passage.inherits`).
-/
import OnceProxy.Proofs.Proxy.Coherence
import OnceProxy.Proofs.Proxy.Storage
import OnceProxy.Proofs.Proxy.Waiting
import OnceProxy.Proofs.Store.Interference
import OnceProxy.Proofs.Store.Refinement
import OnceProxy.Proofs.Store.Snapshot

namespace OnceProxy

-- ============================================================== one store

namespace Store

open MemoryStore

/-- The operations that bring in no new result: all but a put. -/
def Operation.Plain (o : Operation) : Prop :=
  ∀ key e, o ≠ .putIfAbsent key e

/-- What an operation may do to a store of entries. -/
inductive Effect (now : UInt64) (s : MemoryStore) (o : Operation) :
    MemoryStore → Prop where
  /-- Nothing. -/
  | idle : Effect now s o s
  /-- The expiry of a live entry is moved. -/
  | extended (key : EntryKey) (duration : Nat) :
      Effect now s o (s.extend now key duration)
  /-- An entry is put where none is live. -/
  | inserted (key : EntryKey) (e : Entry) (puts : o = .putIfAbsent key e)
      (free : s.live? now key = none) : Effect now s o (s.writeEntry key e)
  /-- A live entry is swapped for one of the same result. -/
  | swapped (key : EntryKey) (e f : Entry) (fits : f.Fits)
      (live : s.live? now key = some e) (same : e.sameResult f = true) :
      Effect now s o (s.writeEntry key f)

theorem effect_run {s : MemoryStore} (h : s.WellStored) (now : UInt64)
    {o : Operation} (fits : o.Fits) (m : Metrics) :
    Effect now s o (o.dialogue.run backend now (s, m)).2.1 := by
  cases o with
  | get key =>
      show Effect now s _ ((Cache.get key).run backend now (s, m)).2.1
      rw [Cache.run_get h]
      exact .idle
  | getVersioned key =>
      show Effect now s _ ((Cache.getVersioned key).run backend now (s, m)).2.1
      cases hlive : s.live? now key with
      | none =>
          rw [Cache.run_getVersioned_none h hlive]
          exact .idle
      | some e =>
          obtain ⟨r, -, -, hrun⟩ := Cache.run_getVersioned_some h hlive m
          rw [hrun]
          exact .idle
  | putIfAbsent key e =>
      show Effect now s _ ((Cache.putIfAbsent key e).run backend now (s, m)).2.1
      rw [Cache.run_putIfAbsent h]
      show Effect now s _ (s.insert now key e)
      unfold MemoryStore.insert
      cases hlive : s.live? now key with
      | none => exact .inserted key e rfl hlive
      | some f => exact .idle
  | compareAndSwap key version e =>
      show Effect now s _
        ((Cache.compareAndSwap key version e).run backend now (s, m)).2.1
      cases hlive : s.live? now key with
      | none =>
          rw [Cache.run_compareAndSwap_none h hlive]
          exact .idle
      | some f =>
          obtain ⟨r, -, -, hr⟩ := h.filter_isLive_eq_some hlive
          rw [Cache.run_compareAndSwap_some h hlive hr]
          by_cases hversion : r.version = version
          · cases hsame : f.sameResult e with
            | false => simpa [hversion] using Effect.idle
            | true =>
                simpa [hversion] using Effect.swapped key f e fits hlive hsame
          · simpa [hversion] using Effect.idle
  | refresh key duration =>
      show Effect now s _ ((Cache.refresh key duration).run backend now (s, m)).2.1
      rw [Cache.run_refresh h]
      exact .extended key duration

/-- A store of entries after something has happened to it: what was live is
held still, with the same result. -/
structure Keeps (now : UInt64) (s t : MemoryStore) : Prop where
  wellStored : t.WellStored
  holds : ∀ k e, s.live? now k = some e →
    ∃ f, t.held? k = some f ∧ e.sameResult f = true

/-- What is held in the second store is held in the first, with the same
result. -/
def Inherits (s t : MemoryStore) : Prop :=
  ∀ k f, t.held? k = some f →
    ∃ e, s.held? k = some e ∧ e.sameResult f = true

section Stores

variable {now : UInt64} {s : MemoryStore}

theorem Keeps.change {t : MemoryStore} (h : s.WellStored)
    (hc : Change now s t) : Keeps now s t :=
  ⟨hc.wellStored h, fun _ _ he =>
    (hc.keeps h he).imp fun _ hf => ⟨hf.1, hf.2.1⟩⟩

/-- An entry takes the place of one with its result. -/
theorem Keeps.writeEntry (h : s.WellStored) {key : EntryKey} {e f : Entry}
    (fits : f.Fits) (he : s.live? now key = some e)
    (hsame : e.sameResult f = true) : Keeps now s (s.writeEntry key f) := by
  refine ⟨h.writeEntry key fits, fun k g hg => ?_⟩
  rw [held?_writeEntry fits]
  by_cases hk : k = key
  · subst hk
    obtain rfl : e = g := Option.some.inj (he.symm.trans hg)
    exact ⟨f, if_pos rfl, hsame⟩
  · exact ⟨g, (if_neg hk).trans (live?_eq_some.mp hg).1, g.sameResult_refl⟩

theorem Inherits.refl (s : MemoryStore) : Inherits s s :=
  fun _ f hf => ⟨f, hf, f.sameResult_refl⟩

theorem Inherits.purge (h : s.WellStored) (now : UInt64) :
    Inherits s (s.purge now) := by
  intro k f hf
  rw [h.held?_purge] at hf
  exact ⟨f, (live?_eq_some.mp hf).1, f.sameResult_refl⟩

theorem Inherits.writeEntry {key : EntryKey} {e f : Entry} (fits : f.Fits)
    (he : s.live? now key = some e) (hsame : e.sameResult f = true) :
    Inherits s (s.writeEntry key f) := by
  intro k g hg
  rw [held?_writeEntry fits] at hg
  by_cases hk : k = key
  · subst hk
    rw [if_pos rfl] at hg
    cases hg
    exact ⟨e, (live?_eq_some.mp he).1, hsame⟩
  · rw [if_neg hk] at hg
    exact ⟨g, hg, g.sameResult_refl⟩

theorem Inherits.extend (h : s.WellStored) (now : UInt64) (key : EntryKey)
    (duration : Nat) : Inherits s (s.extend now key duration) := by
  rcases s.extend_cases now key duration with
    hidle | ⟨e, expiry, he, -, hwrite⟩
  · rw [hidle]
    exact .refl s
  · rw [hwrite]
    exact .writeEntry ((h.fits (live?_eq_some.mp he).1).withExpiry expiry) he
      (e.sameResult_withExpiry expiry)

/-- No operation of the cache takes a live entry away or changes its
result. -/
theorem Effect.keeps {t : MemoryStore} {o : Operation}
    (heffect : Effect now s o t) (h : s.WellStored) (fits : o.Fits) :
    Keeps now s t := by
  cases heffect with
  | idle => exact .change h .idle
  | extended key duration => exact .change h (.extended key duration)
  | inserted key e puts free =>
      subst puts
      exact .change h (.inserted key e fits free)
  | swapped key e f fits live same => exact .writeEntry h fits live same

/-- None but a put brings in a new result. -/
theorem Effect.inherits {t : MemoryStore} {o : Operation}
    (heffect : Effect now s o t) (h : s.WellStored)
    (plain : o.Plain) : Inherits s t := by
  cases heffect with
  | idle => exact .refl s
  | extended key duration => exact .extend h now key duration
  | inserted key e puts free => exact absurd puts (plain key e)
  | swapped key e f fits live same => exact .writeEntry fits live same

end Stores

end Store

-- =============================================================== passages

namespace Proxy.System

open Http Store MemoryStore

/-- Something that a system may live through, if others may ask for such
operations. -/
inductive Passage (may : Operation → Prop) (s : System MemoryStore) :
    System MemoryStore → Prop where
  /-- An event. -/
  | event {t : System MemoryStore} (e : Event) (fits : e.Fits)
      (step : s.step MemoryStore.backend e = some t) : Passage may s t
  /-- Somebody else asks the cache for an operation. -/
  | operated (o : Operation) (allowed : may o) (fits : o.Fits) :
      Passage may s (s.converse MemoryStore.backend o.dialogue).2
  /-- The live records are saved, listed in some order, and a new system
  starts over the store that is loaded from them. -/
  | restarted (wall : Int) (policies : List Policy) (store : MemoryStore)
      (listed : List (EntryKey × Record)) (order : listed.Perm s.store.records)
      (size : s.store.Fits)
      (loaded : load (start wall store policies).now
        (save { s.store with records := listed } s.now) = .ok store) :
      Passage may s (start wall store policies)

/-- What a system may come to, if something holds of it all the while. -/
inductive Descends (may : Operation → Prop) (P : System MemoryStore → Prop)
    (s : System MemoryStore) : System MemoryStore → Prop where
  | here (holds : P s) : Descends may P s s
  | next {t u : System MemoryStore} (before : Descends may P s t)
      (passage : Passage may t u) (holds : P u) : Descends may P s u

/-- What a system may come to. -/
abbrev Reaches (may : Operation → Prop) (s t : System MemoryStore) : Prop :=
  Descends may (fun _ => True) s t

namespace Passage

variable {may : Operation → Prop} {s t : System MemoryStore}

/-- What a restart leaves was there before. -/
theorem find?_restarted {wall : Int} {policies : List Policy}
    {store : MemoryStore} {listed : List (EntryKey × Record)}
    (order : listed.Perm s.store.records) (size : s.store.Fits)
    (hs : s.store.WellStored)
    (loaded : load (start wall store policies).now
      (save { s.store with records := listed } s.now) = .ok store) :
    store.Distinct ∧ ∀ key r, store.find? key = some r →
      s.store.find? key = some r := by
  obtain ⟨t, ht, hdistinct, hfind⟩ := load_save_of_live size hs.distinct
    order s.now (start wall store policies).now
  obtain rfl : store = t := Except.ok.inj (loaded.symm.trans ht)
  refine ⟨hdistinct, fun key r hr => ?_⟩
  rw [hfind] at hr
  exact (Option.filter_eq_some_iff.mp hr).1

theorem wellStored (h : Passage may s t) (hs : s.store.WellStored) :
    t.store.WellStored := by
  cases h with
  | event e fits step =>
      exact ((Move.mk hs step).writing.change fits).wellStored hs
  | operated o allowed fits =>
      exact ((effect_run hs s.now fits s.metrics).keeps hs fits).wellStored
  | restarted wall policies store listed order size loaded =>
      obtain ⟨hdistinct, hback⟩ := find?_restarted order size hs loaded
      exact ⟨hdistinct, fun k r hr => hs.holds k r (hback k r hr)⟩

theorem coherent (h : Passage may s t) (hc : s.Coherent) : t.Coherent := by
  cases h with
  | event e fits step => exact hc.shift (step_deed step).shift
  | operated o => exact hc.congr (fun _ => rfl) rfl
  | restarted wall policies store => exact coherent_start wall store policies

/-- What is held after a restart was held before. -/
theorem held?_of_find? {k : EntryKey} {e : Entry} {store loaded : MemoryStore}
    (hw : loaded.WellStored) (hback : ∀ key r, loaded.find? key = some r →
      store.find? key = some r) (he : loaded.held? k = some e) :
    store.held? k = some e := by
  obtain ⟨r, hr, -⟩ := hw.record he
  rw [← he]
  unfold held?
  rw [hr, hback k r hr]

/-- What a key holds live it held live with the same result, if it held
anything live. -/
theorem sameResult (h : Passage may s t) (hs : s.store.WellStored)
    {key : EntryKey} {e f : Entry} (he : s.live? key = some e)
    (hf : t.live? key = some f) : e.sameResult f = true := by
  have hheld := (live?_eq_some.mp hf).1
  have hkept : Keeps s.now s.store t.store → e.sameResult f = true := by
    intro hkeeps
    obtain ⟨g, hg, hsame⟩ := hkeeps.holds key e he
    rwa [Option.some.inj (hheld.symm.trans hg)]
  have hw := h.wellStored hs
  cases h with
  | event e fits step =>
      exact hkept (.change hs ((Move.mk hs step).writing.change fits))
  | operated o allowed fits =>
      exact hkept ((effect_run hs s.now fits s.metrics).keeps hs fits)
  | restarted wall policies store listed order size loaded =>
      have hold := held?_of_find? hw
        (find?_restarted order size hs loaded).2 hheld
      obtain rfl : e = f :=
        Option.some.inj ((live?_eq_some.mp he).1.symm.trans hold)
      exact e.sameResult_refl

/-- Where nobody else puts anything, a leader stores the entry for a final
response, or what is held was held before. -/
theorem inherits (h : Passage may s t) (hs : s.store.WellStored)
    (plain : ∀ o, may o → o.Plain) :
    Inherits s.store t.store
      ∨ ∃ l c response, s.step MemoryStore.backend
          (.answer c.call (.ok response)) = some t
        ∧ s.leaderOf c.call = some l ∧ l.waiting = some c
        ∧ s.elapsed ≤ c.deadline
        ∧ l.policy.isDefinitive response.status = true ∧ response.Fits
        ∧ t.store = s.store.writeEntry l.guard.key
          (l.request.entryFor l.policy response s.now) := by
  have hw := h.wellStored hs
  cases h with
  | event e fits step =>
      have hwriting := (Move.mk hs step).writing
      generalize hstore : t.store = store at hwriting
      cases hwriting with
      | none => exact .inl (.refl _)
      | swept event => exact .inl (.purge hs s.now)
      | refreshed site caller r found duration attempts live own =>
          exact .inl (.extend hs s.now _ duration)
      | inserted l c response event leads waits inTime final free =>
          subst event
          exact .inr ⟨l, c, response, step, leads, waits, inTime, final, fits,
            rfl⟩
  | operated o allowed fits =>
      exact .inl ((effect_run hs s.now fits s.metrics).inherits hs
        (plain o allowed))
  | restarted wall policies store listed order size loaded =>
      refine .inl fun k f hf => ⟨f, ?_, f.sameResult_refl⟩
      exact held?_of_find? hw (find?_restarted order size hs loaded).2 hf

end Passage

-- ================================================================ lineage

namespace Descends

variable {may : Operation → Prop} {P : System MemoryStore → Prop}
  {s t : System MemoryStore}

theorem first (h : Descends may P s t) : P s := by
  induction h with
  | here holds => exact holds
  | next before passage holds ih => exact ih

theorem holds (h : Descends may P s t) : P t := by
  cases h with
  | here holds => exact holds
  | next before passage holds => exact holds

/-- A run during which it holds. -/
theorem run {events : List Event} (fits : ∀ e ∈ events, e.Fits)
    (hr : s.run MemoryStore.backend events = some t)
    (all : ∀ past u, past <+: events →
      s.run MemoryStore.backend past = some u → P u) : Descends may P s t := by
  refine run_induction (P := fun _ => Descends may P s) hr ?_ ?_
  · exact .here (all [] s List.nil_prefix rfl)
  · intro past e rest v w hsplit hv hdescends hstep
    have hprefix : past ++ [e] <+: events :=
      ⟨rest, by rw [hsplit, List.append_assoc]; rfl⟩
    exact .next hdescends (.event e (fits e (by simp [hsplit])) hstep)
      (all _ w hprefix (run_concat hv hstep))

theorem wellStored (h : Descends may P s t) (hs : s.store.WellStored) :
    t.store.WellStored := by
  induction h with
  | here => exact hs
  | next before passage holds ih => exact passage.wellStored ih

theorem coherent (h : Descends may P s t) (hc : s.Coherent) :
    t.Coherent := by
  induction h with
  | here => exact hc
  | next before passage holds ih =>
      exact passage.coherent ih

/-- As long as a key has a live entry, it is one result. -/
theorem sameResult {key : EntryKey}
    (h : Descends may (fun u => u.live? key ≠ none) s t)
    (hs : s.store.WellStored) {e f : Entry} (he : s.live? key = some e)
    (hf : t.live? key = some f) : e.sameResult f = true := by
  induction h generalizing f with
  | here =>
      cases Option.some.inj (he.symm.trans hf)
      exact e.sameResult_refl
  | next before passage _ ih =>
      obtain ⟨g, hg⟩ := Option.ne_none_iff_exists'.mp before.holds
      exact Entry.sameResult_trans (ih hg)
        (passage.sameResult (before.wellStored hs) hg hf)

end Descends

end Proxy.System

end OnceProxy
