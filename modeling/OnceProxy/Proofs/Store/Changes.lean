/-
What can happen to a store of entries at one instant, and what survives it.

The proxies and the sweeper change a store in three ways: a purge, the
moving of one expiry, the writing of an entry where none is live
(`Change`). Whichever it is, an entry that is live at that instant is still
held afterwards, with the same result and no earlier expiry
(`Change.keeps`); it can vanish through the passing of time only.
-/
import OnceProxy.Proofs.Store.Entries

namespace OnceProxy

-- ======================================================= equal results

namespace Entry

/-- Entries of one result are one entry with two expiries. -/
theorem sameResult_iff {a b : Entry} :
    a.sameResult b = true ↔ b = a.withExpiry b.expiresAt := by
  unfold sameResult
  rw [decide_eq_true_eq]
  constructor
  · intro h
    have hb : b = (b.withExpiry 0).withExpiry b.expiresAt := rfl
    rw [hb, ← h]
    rfl
  · intro h
    rw [h]
    rfl

theorem sameResult_refl (a : Entry) : a.sameResult a = true :=
  sameResult_iff.mpr rfl

theorem sameResult_withExpiry (a : Entry) (t : UInt64) :
    a.sameResult (a.withExpiry t) = true :=
  sameResult_iff.mpr rfl

theorem sameResult_trans {a b c : Entry} (hab : a.sameResult b = true)
    (hbc : b.sameResult c = true) : a.sameResult c = true := by
  rw [sameResult_iff] at hab hbc ⊢
  rw [hbc, hab]
  rfl

end Entry

namespace Store

open MemoryStore

-- ============================================================= changes

/-- What can happen to a store at an instant. -/
inductive Change (now : UInt64) (s : MemoryStore) : MemoryStore → Prop where
  /-- Nothing. -/
  | idle : Change now s s
  /-- What has expired is dropped. -/
  | swept : Change now s (s.purge now)
  /-- The expiry of a live entry is moved. -/
  | extended (key : EntryKey) (duration : Nat) :
      Change now s (s.extend now key duration)
  /-- An entry is written where none is live. -/
  | inserted (key : EntryKey) (e : Entry) (fits : e.Fits)
      (free : s.live? now key = none) : Change now s (s.writeEntry key e)

namespace Change

variable {now : UInt64} {s t : MemoryStore}

/-- Changes keep a store well stored. -/
theorem wellStored (hc : Change now s t) (h : s.WellStored) :
    t.WellStored := by
  cases hc with
  | idle => exact h
  | swept => exact h.purge now
  | extended key duration =>
      rcases s.extend_cases now key duration with
        hidle | ⟨e, expiry, he, -, hwrite⟩
      · rw [hidle]
        exact h
      · rw [hwrite]
        have hfits := h.fits (live?_eq_some.mp he).1
        exact h.writeEntry key (hfits.withExpiry expiry)
  | inserted key e fits free => exact h.writeEntry key fits

/-- A live entry is held after a change, with the same result and no
earlier expiry. -/
theorem keeps (hc : Change now s t) (h : s.WellStored) {k : EntryKey}
    {e : Entry} (he : s.live? now k = some e) :
    ∃ f, t.held? k = some f ∧ e.sameResult f = true
      ∧ e.expiresAt ≤ f.expiresAt := by
  have hheld := (live?_eq_some.mp he).1
  have hsame : ∃ f, s.held? k = some f ∧ e.sameResult f = true
      ∧ e.expiresAt ≤ f.expiresAt :=
    ⟨e, hheld, e.sameResult_refl, UInt64.le_refl _⟩
  cases hc with
  | idle => exact hsame
  | swept =>
      refine ⟨e, ?_, e.sameResult_refl, UInt64.le_refl _⟩
      rw [h.held?_purge, he]
  | extended key duration =>
      rcases s.extend_cases now key duration with
        hidle | ⟨old, expiry, hold, hlater, hwrite⟩
      · rw [hidle]
        exact hsame
      · have hfits := h.fits (live?_eq_some.mp hold).1
        rw [hwrite, held?_writeEntry (hfits.withExpiry expiry)]
        by_cases hk : k = key
        · subst hk
          rw [he] at hold
          cases hold
          exact ⟨_, if_pos rfl, e.sameResult_withExpiry expiry,
            UInt64.le_of_lt hlater⟩
        · rw [if_neg hk]
          exact hsame
  | inserted key f fits free =>
      rw [held?_writeEntry fits]
      by_cases hk : k = key
      · subst hk
        rw [he] at free
        cases free
      · rw [if_neg hk]
        exact hsame

end Change

end Store

end OnceProxy
