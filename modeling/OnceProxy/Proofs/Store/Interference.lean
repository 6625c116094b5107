/-
What an operation of the cache does to a store that others change meanwhile.

An operation reads a record and writes on the strength of its version. What
lies between the two is out of its hands: sweeps, other writes, the passing
of time. All of it has one thing in common. Versions are given out once, so
a record with a version that was out already is the record that had it then
(`Later`). A reader therefore keeps what it knows of a version, for as long
as it likes (`Known`), and a swap that needs the version replaces exactly
what was read.

# The two sides

`Harmless` says what a call may do to the store: every record that has not
expired is still there afterwards or continued by one of the same result.
`Respects` says of a dialogue that all its calls are harmless whatever later
stores it meets between its steps; it is stated along the dialogue and
composes with `bind`. The four operations of the cache are gone through once
(`respects_dialogue`), and no run of them is looked at here.
-/
import OnceProxy.Proofs.Store.Changes
import OnceProxy.Store.Clients

namespace OnceProxy.Store

open MemoryStore

-- ============================================================== versions

namespace MemoryStore

/-- A store of entries under versions that have been given out. -/
structure Numbered (s : MemoryStore) : Prop where
  wellStored : s.WellStored
  given : ∀ k r, s.find? k = some r → r.version ≤ s.lastVersion

theorem numbered_empty : empty.Numbered :=
  ⟨wellStored_empty, fun _ _ h => by cases h⟩

/-- A store as it may be later: what is new in it has a new version. -/
structure Later (s t : MemoryStore) : Prop where
  versions : s.lastVersion ≤ t.lastVersion
  old : ∀ k r, t.find? k = some r → r.version ≤ s.lastVersion →
    s.find? k = some r

namespace Later

variable {s t u : MemoryStore}

theorem refl (s : MemoryStore) : Later s s :=
  ⟨UInt64.le_refl _, fun _ _ h _ => h⟩

theorem trans (hst : Later s t) (htu : Later t u) : Later s u :=
  ⟨UInt64.le_trans hst.versions htu.versions, fun k r hr hle =>
    hst.old k r (htu.old k r hr (UInt64.le_trans hle hst.versions)) hle⟩

/-- A purge drops records and adds none. -/
theorem purge (h : s.Distinct) (now : UInt64) : Later s (s.purge now) := by
  refine ⟨UInt64.le_refl _, fun k r hr _ => ?_⟩
  rw [find?_purge h] at hr
  exact (Option.filter_eq_some_iff.mp hr).1

/-- A write adds a record under a version that nothing had, as long as the
versions do not start over. -/
theorem write (key : EntryKey) (value : Octets) (expiresAt : UInt64)
    (room : s.lastVersion ≤ s.lastVersion + 1) :
    Later s (s.write key value expiresAt) := by
  refine ⟨room, fun k r hr hle => ?_⟩
  rw [find?_write] at hr
  split at hr
  · cases hr
    have hle : s.lastVersion + 1 ≤ s.lastVersion := hle
    rw [UInt64.le_iff_toNat_le, UInt64.toNat_add] at room hle
    have hlt := s.lastVersion.toNat_lt
    have hone : (1 : UInt64).toNat = 1 := rfl
    omega
  · exact hr

end Later

theorem Numbered.purge {s : MemoryStore} (h : s.Numbered) (now : UInt64) :
    (s.purge now).Numbered :=
  ⟨h.wellStored.purge now, fun k r hr => h.given k r
    ((Later.purge h.wellStored.distinct now).old k r hr (by
      rw [find?_purge h.wellStored.distinct] at hr
      exact h.given k r (Option.filter_eq_some_iff.mp hr).1))⟩

theorem Numbered.writeEntry {s : MemoryStore} (h : s.Numbered)
    (key : EntryKey) {e : Entry} (he : e.Fits)
    (room : s.lastVersion ≤ s.lastVersion + 1) :
    (s.writeEntry key e).Numbered := by
  refine ⟨h.wellStored.writeEntry key he, fun k r hr => ?_⟩
  show r.version ≤ s.lastVersion + 1
  unfold MemoryStore.writeEntry at hr
  rw [find?_write] at hr
  split at hr
  · cases hr
    exact UInt64.le_refl _
  · exact UInt64.le_trans (h.given k r hr) room

end MemoryStore

-- ============================================================== harmless

/-- The records hold entries that differ at most in their expiry. -/
def Record.Continues (r r' : Record) : Prop :=
  ∃ e e', r.Holds e ∧ r'.Holds e' ∧ e.sameResult e' = true

theorem Record.Holds.continues {r : Record} {e : Entry} (h : r.Holds e) :
    r.Continues r :=
  ⟨e, e, h, h, e.sameResult_refl⟩

/-- What may happen to a store of entries at an instant: a record that has
not expired stays or is continued, and, where expiries are to grow only, no
earlier expiry is given to it. -/
structure Harmless (grows : Prop) (now : UInt64) (s t : MemoryStore) :
    Prop where
  numbered : t.Numbered
  later : Later s t
  keeps : ∀ k r, s.find? k = some r → r.expiresAt ≤ now ∨ ∃ r',
    t.find? k = some r' ∧ r.Continues r' ∧ (grows → r.expiresAt ≤ r'.expiresAt)

namespace Harmless

variable {grows : Prop} {now : UInt64} {s t : MemoryStore}

theorem refl (h : s.Numbered) : Harmless grows now s s := by
  refine ⟨h, .refl s, fun k r hr => .inr ⟨r, hr, ?_, fun _ =>
    UInt64.le_refl _⟩⟩
  obtain ⟨e, he⟩ := h.wellStored.holds k r hr
  exact he.continues

theorem purge (h : s.Numbered) : Harmless grows now s (s.purge now) := by
  refine ⟨h.purge now, .purge h.wellStored.distinct now, fun k r hr => ?_⟩
  by_cases hlive : now < r.expiresAt
  · obtain ⟨e, he⟩ := h.wellStored.holds k r hr
    refine .inr ⟨r, ?_, he.continues, fun _ => UInt64.le_refl _⟩
    rw [find?_purge h.wellStored.distinct, hr]
    exact Option.filter_some_pos (decide_eq_true hlive)
  · exact .inl (UInt64.not_lt.mp hlive)

/-- An entry may replace a record that has expired, or one of its own
result. -/
theorem writeEntry (h : s.Numbered) {key : EntryKey} {f : Entry}
    (hf : f.Fits) (room : s.lastVersion ≤ s.lastVersion + 1)
    (may : ∀ r, s.find? key = some r → r.expiresAt ≤ now ∨ ∃ e, r.Holds e
      ∧ e.sameResult f = true ∧ (grows → r.expiresAt ≤ f.expiresAt)) :
    Harmless grows now s (s.writeEntry key f) := by
  refine ⟨h.writeEntry key hf room, .write key _ _ room, fun k r hr => ?_⟩
  unfold MemoryStore.writeEntry
  rw [find?_write]
  by_cases hk : k = key
  · subst hk
    rcases may r hr with hdead | ⟨e, he, hsame, hgrows⟩
    · exact .inl hdead
    · exact .inr ⟨_, if_pos rfl, ⟨e, f, he, ⟨hf, rfl, rfl⟩, hsame⟩, hgrows⟩
  · obtain ⟨e, he⟩ := h.wellStored.holds k r hr
    rw [if_neg hk]
    exact .inr ⟨r, hr, he.continues, fun _ => UInt64.le_refl _⟩

end Harmless

-- ============================================================= dialogues

/-- Whatever later stores and instants the dialogue meets between its steps,
its calls are harmless, and what it ends with is as `post` says. A call that
would start the versions over is left out of account. -/
def Dialogue.Respects (grows : Prop) (post : α → MemoryStore → Prop) :
    Dialogue α → UInt64 → MemoryStore → Prop
  | .done a, _, s => post a s
  | .fail _, _, _ => True
  | .clock next, now, s => ∀ later t, now ≤ later → Later s t → t.Numbered →
      (next later).Respects grows post later t
  | .ask q next, now, s => ∀ later t, now ≤ later → Later s t → t.Numbered →
      t.lastVersion ≤ (t.answer q later).2.lastVersion →
      Harmless grows later t (t.answer q later).2
        ∧ (next (t.answer q later).1).Respects grows post later
          (t.answer q later).2

namespace Dialogue.Respects

variable {grows : Prop} {now : UInt64} {s : MemoryStore}

theorem bind {d : Dialogue α} {f : α → Dialogue β}
    {mid : α → MemoryStore → Prop} {post : β → MemoryStore → Prop}
    (hd : d.Respects grows mid now s)
    (hf : ∀ a later t, now ≤ later → mid a t →
      (f a).Respects grows post later t) :
    (d >>= f).Respects grows post now s := by
  show (d.bind f).Respects grows post now s
  induction d generalizing now s with
  | done a => exact hf a now s (UInt64.le_refl _) hd
  | fail e => trivial
  | clock next ih =>
      intro later t hle hlater ht
      exact ih later (hd later t hle hlater ht)
        (fun a more u hmore => hf a more u (UInt64.le_trans hle hmore))
  | ask q next ih =>
      intro later t hle hlater ht room
      obtain ⟨hharmless, hnext⟩ := hd later t hle hlater ht room
      exact ⟨hharmless, ih _ hnext
        (fun a more u hmore => hf a more u (UInt64.le_trans hle hmore))⟩

theorem mono {d : Dialogue α} {post weaker : α → MemoryStore → Prop}
    (hd : d.Respects grows post now s) (h : ∀ a t, post a t → weaker a t) :
    d.Respects grows weaker now s := by
  induction d generalizing now s with
  | done a => exact h a s hd
  | fail e => trivial
  | clock next ih =>
      intro later t hle hlater ht
      exact ih later (hd later t hle hlater ht)
  | ask q next ih =>
      intro later t hle hlater ht room
      obtain ⟨hharmless, hnext⟩ := hd later t hle hlater ht room
      exact ⟨hharmless, ih _ hnext⟩

/-- What a dialogue respects it respects from any later instant on. -/
theorem later {d : Dialogue α}
    (hd : d.Respects grows (fun _ _ => True) now s) {after : UInt64}
    {t : MemoryStore} (hle : now ≤ after) (hlater : Later s t) :
    d.Respects grows (fun _ _ => True) after t := by
  cases d with
  | done a => trivial
  | fail e => trivial
  | clock next =>
      intro more u hmore hu
      exact hd more u (UInt64.le_trans hle hmore) (hlater.trans hu)
  | ask q next =>
      intro more u hmore hu
      exact hd more u (UInt64.le_trans hle hmore) (hlater.trans hu)

/-- One step of a dialogue. -/
theorem step {d rest : Dialogue α} {t : MemoryStore}
    (hd : d.Respects grows (fun _ _ => True) now s) (hs : s.Numbered)
    (hstep : d.step now s = some (rest, t))
    (room : s.lastVersion ≤ t.lastVersion) :
    Harmless grows now s t
      ∧ rest.Respects grows (fun _ _ => True) now t := by
  cases d with
  | done a => cases hstep
  | fail e => cases hstep
  | clock next =>
      cases hstep
      exact ⟨.refl hs, hd now s (UInt64.le_refl _) (.refl s) hs⟩
  | ask q next =>
      cases hstep
      exact hd now s (UInt64.le_refl _) (.refl s) hs room

end Dialogue.Respects

-- ============================================================ operations

namespace Cache

open Dialogue

/-- What is known of a version that was read: if a record still has it, it
holds this entry. -/
structure Known (key : EntryKey) (x : StoredEntry) (s : MemoryStore) :
    Prop where
  fits : x.entry.Fits
  given : x.version ≤ s.lastVersion
  holds : ∀ r, s.find? key = some r → r.version = x.version →
    r.Holds x.entry

theorem Known.later {key : EntryKey} {x : StoredEntry} {s t : MemoryStore}
    (h : Known key x s) (hlater : Later s t) : Known key x t := by
  refine ⟨h.fits, UInt64.le_trans h.given hlater.versions,
    fun r hr hv => ?_⟩
  exact h.holds r (hlater.old key r hr (hv ▸ h.given)) hv

/-- A value that is read as an entry, and known by its version. -/
def Told (key : EntryKey) (raw : Versioned) (s : MemoryStore) : Prop :=
  ∃ e, decoded raw.value = .done e ∧ Known key ⟨e, raw.version⟩ s

theorem told_of_find? {s : MemoryStore} (h : s.Numbered) {key : EntryKey}
    {r : Record} (hr : s.find? key = some r) : Told key r.versioned s := by
  obtain ⟨e, he⟩ := h.wellStored.holds key r hr
  refine ⟨e, decoded_of_holds he, he.fits, h.given key r hr,
    fun r' hr' _ => ?_⟩
  rw [hr] at hr'
  cases hr'
  exact he

variable {grows : Prop}

theorem respects_query_get (key : EntryKey) (now : UInt64)
    (s : MemoryStore) :
    (query (.get key)).Respects grows
      (fun answer t => ∀ raw, answer = some raw → Told key raw t) now s := by
  intro later t hle hlater ht _
  refine ⟨.refl ht, fun raw hraw => ?_⟩
  obtain ⟨r, hfilter, rfl⟩ := Option.map_eq_some_iff.mp hraw
  exact told_of_find? ht (Option.filter_eq_some_iff.mp hfilter).1

theorem respects_getVersioned (key : EntryKey) (now : UInt64)
    (s : MemoryStore) :
    (getVersioned key).Respects grows
      (fun x t => ∀ y, x = some y → Known key y t) now s := by
  refine (respects_query_get key now s).bind fun answer later t _ htold => ?_
  cases answer with
  | none =>
      intro y hy
      cases hy
  | some raw =>
      obtain ⟨e, hdecoded, hknown⟩ := htold raw rfl
      dsimp only
      rw [hdecoded]
      -- the clock is read after the store, and by then the store is another
      intro more u hmore hu hnumbered
      show (if e.isExpiredAt more then pure none
        else pure (some ⟨e, raw.version⟩) :
          Dialogue (Option StoredEntry)).Respects grows _ more u
      split
      · intro y hy
        cases hy
      · intro y hy
        cases hy
        exact hknown.later hu

theorem respects_get (key : EntryKey) (now : UInt64) (s : MemoryStore) :
    (get key).Respects grows (fun _ _ => True) now s :=
  (respects_getVersioned key now s).bind fun _ _ _ _ _ => trivial

/-- A swap is harmless if whoever asks for it knows that the record of the
version may be replaced. -/
theorem respects_query_swap {key : EntryKey} {version : UInt64} {f : Entry}
    (hf : f.Fits) {now : UInt64} {s : MemoryStore}
    (given : version ≤ s.lastVersion)
    (may : ∀ r, s.find? key = some r → r.version = version →
      r.expiresAt ≤ now ∨ ∃ e, r.Holds e ∧ e.sameResult f = true
        ∧ (grows → r.expiresAt ≤ f.expiresAt)) :
    (query (.swap key version f.encode f.expiresAt)).Respects grows
      (fun _ _ => True) now s := by
  intro later t hle hlater ht room
  refine ⟨?_, trivial⟩
  have room : t.lastVersion ≤ (t.compareAndSwap key version f.encode
    f.expiresAt).2.lastVersion := room
  show Harmless grows later t (t.compareAndSwap key version f.encode
    f.expiresAt).2
  rcases t.compareAndSwap_cases key version f.encode f.expiresAt with
    ⟨-, hidle⟩ | ⟨r, hr, hv, hwrite⟩
  · rw [hidle]
    exact .refl ht
  · rw [hwrite] at room ⊢
    refine .writeEntry ht hf room fun r' hr' => ?_
    rw [hr] at hr'
    cases hr'
    -- the record has a version that was out before, so it is that record
    rcases may r (hlater.old key r hr (hv ▸ given)) hv with hdead | hsame
    · exact .inl (UInt64.le_trans hdead hle)
    · exact .inr hsame

theorem respects_swap {key : EntryKey} {version : UInt64} {f : Entry}
    (hf : f.Fits) {now : UInt64} {s : MemoryStore}
    (given : version ≤ s.lastVersion)
    (may : ∀ r, s.find? key = some r → r.version = version →
      r.expiresAt ≤ now ∨ ∃ e, r.Holds e ∧ e.sameResult f = true
        ∧ (grows → r.expiresAt ≤ f.expiresAt)) :
    (swap key version f).Respects grows (fun _ _ => True) now s := by
  refine (respects_query_swap hf given may).bind fun answer _ _ _ _ => ?_
  cases answer <;> trivial

theorem respects_query_put (key : EntryKey) {f : Entry} (hf : f.Fits)
    (now : UInt64) (s : MemoryStore) :
    (query (.put key f.encode f.expiresAt)).Respects grows
      (fun answer t => ∀ raw, answer = .held raw → Told key raw t) now s := by
  intro later t hle hlater ht room
  have room : t.lastVersion ≤ (t.putIfAbsent later key f.encode
    f.expiresAt).2.lastVersion := room
  show Harmless grows later t (t.putIfAbsent later key f.encode
      f.expiresAt).2
    ∧ ∀ raw, (t.putIfAbsent later key f.encode f.expiresAt).1 = .held raw →
      Told key raw (t.putIfAbsent later key f.encode f.expiresAt).2
  rcases t.putIfAbsent_cases later key f.encode f.expiresAt with
    ⟨hdead, hwrite⟩ | ⟨r, hr, -, hheld⟩
  · rw [hwrite] at room ⊢
    refine ⟨.writeEntry ht hf room fun r hr => .inl (hdead r hr),
      fun raw hraw => ?_⟩
    cases hraw
  · rw [hheld]
    refine ⟨.refl ht, fun raw hraw => ?_⟩
    cases hraw
    exact told_of_find? ht hr

theorem respects_putWith (key : EntryKey) {f : Entry} (hf : f.Fits)
    (attempts : Nat) (now : UInt64) (s : MemoryStore) :
    (putWith key f attempts).Respects grows (fun _ _ => True) now s := by
  induction attempts generalizing now s with
  | zero => trivial
  | succ attempts ih =>
      refine (respects_query_put key hf now s).bind
        fun answer later t _ htold => ?_
      cases answer with
      | stored _ => trivial
      | held raw =>
          obtain ⟨e, hdecoded, hknown⟩ := htold raw rfl
          dsimp only
          rw [hdecoded]
          intro more u hmore hu hnumbered
          show (if !e.isExpiredAt more then pure (some (.held e))
            else _ : Dialogue (Option PutOutcome)).Respects grows _ more u
          split
          · trivial
          · next hexpired =>
            rw [not_isExpiredAt, decide_eq_true_eq, UInt64.not_lt]
              at hexpired
            have hknown := hknown.later hu
            refine (respects_query_swap hf hknown.given
              fun r hr hv => .inl ?_).bind fun answer last v _ _ => ?_
            · -- the occupant is the one that was found to be expired
              rw [(hknown.holds r hr hv).expiry]
              exact hexpired
            · cases answer with
              | swapped _ => trivial
              | mismatch => exact ih last v

theorem respects_putIfAbsent (key : EntryKey) {f : Entry} (hf : f.Fits)
    (now : UInt64) (s : MemoryStore) :
    (putIfAbsent key f).Respects grows (fun _ _ => True) now s := by
  refine (respects_putWith key hf _ now s).bind fun x _ _ _ _ => ?_
  cases x <;> trivial

theorem respects_compareAndSwap (hgrows : ¬grows) (key : EntryKey)
    (version : UInt64) {f : Entry} (hf : f.Fits) (now : UInt64)
    (s : MemoryStore) :
    (compareAndSwap key version f).Respects grows (fun _ _ => True) now
      s := by
  refine (respects_getVersioned key now s).bind fun x later t _ hx => ?_
  cases x with
  | none => trivial
  | some current =>
      have hknown := hx current rfl
      dsimp only
      split
      · trivial
      · next hversion =>
        rw [ne_eq, not_not] at hversion
        split
        · trivial
        · next hsame =>
          refine respects_swap hf (hversion ▸ hknown.given)
            fun r hr hv => .inr ⟨current.entry, ?_, by simpa using hsame,
              fun h => absurd h hgrows⟩
          exact hknown.holds r hr (hv.trans hversion.symm)

theorem respects_refresh (key : EntryKey) (duration : Nat) (now : UInt64)
    (s : MemoryStore) :
    (refresh key duration).Respects grows (fun _ _ => True) now s := by
  refine (respects_getVersioned key now s).bind fun x later t _ hx => ?_
  cases x with
  | none => trivial
  | some current =>
      intro more u hmore hu hnumbered
      have hknown := (hx current rfl).later hu
      show (if extension more duration ≤ current.entry.expiresAt then _
        else _ : Dialogue (Option SwapOutcome)).Respects grows _ more u
      split
      · trivial
      · next hlater =>
        have hlonger := UInt64.le_of_lt (UInt64.not_le.mp hlater)
        refine (respects_swap (hknown.fits.withExpiry _) hknown.given
          fun r hr hv => .inr ⟨current.entry, hknown.holds r hr hv,
            current.entry.sameResult_withExpiry _, fun _ => ?_⟩).bind
          fun _ _ _ _ _ => trivial
        rw [(hknown.holds r hr hv).expiry]
        exact hlonger

end Cache

namespace Operation

/-- The entries that an operation brings fit into memory. -/
def Fits : Operation → Prop
  | .putIfAbsent _ e | .compareAndSwap _ _ e => e.Fits
  | _ => True

/-- Every operation is harmless, whatever happens between its steps. Only a
swap that the client itself asks for may give an earlier expiry. -/
theorem respects_dialogue {grows : Prop} {o : Operation} (fits : o.Fits)
    (hswap : ∀ key version e, o = .compareAndSwap key version e → ¬grows)
    (now : UInt64) (s : MemoryStore) :
    o.dialogue.Respects grows (fun _ _ => True) now s := by
  cases o with
  | get key => exact Cache.respects_get key now s
  | getVersioned key =>
      exact (Cache.respects_getVersioned key now s).mono fun _ _ _ => trivial
  | putIfAbsent key e => exact Cache.respects_putIfAbsent key fits now s
  | compareAndSwap key version e =>
      exact Cache.respects_compareAndSwap (hswap key version e rfl) key
        version fits now s
  | refresh key duration => exact Cache.respects_refresh key duration now s

end Operation

end OnceProxy.Store
