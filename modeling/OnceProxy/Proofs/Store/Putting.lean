/-
What storing an entry does, whatever the key-value store answers.

# The form of a conversation

All that can be said while the cache puts an entry is one of eight things a
round (`Putting`): a round ends the conversation, or it loses its swap and
leaves the rest to the rounds that are left. `putting_putWith` finds every
conversation to be of this form, by induction on the number of rounds; from
there on no dialogue is looked at. Each clause of `Conduct` is an induction
on the form.

# Nothing is assumed of the answers

The counterpart may report an occupant that it did not have, forget a write
or read the clock backwards. What is claimed is what the cache asked and
what it concluded from the answers it was given; an error is taken to mean
that the write did not happen.
-/
import OnceProxy.Store.Cache
import OnceProxy.Store.Transcript

namespace OnceProxy.Store

open Dialogue

-- ========================================================= conversations

namespace Dialogue

variable {α β : Type} (c : Counterpart) (said : List Exchange)

theorem play_query (q : Query) (f : q.Answer → Dialogue α) :
    (query q >>= f).play c said = match c.answer said q with
      | .ok a =>
        (.told q a :: ((f a).play c (said ++ [.told q a])).1,
          ((f a).play c (said ++ [.told q a])).2)
      | .error e => ([.refused q e], .error e) := by
  show (ask q f).play c said = _
  cases hanswer : c.answer said q with
  | ok a => simp only [play, hanswer]
  | error e => simp only [play, hanswer]

theorem play_now (f : UInt64 → Dialogue α) :
    (now >>= f).play c said
      = (.clock (c.clock said)
            :: ((f (c.clock said)).play c (said ++ [.clock (c.clock said)])).1,
          ((f (c.clock said)).play c (said ++ [.clock (c.clock said)])).2) :=
  rfl

/-- A second dialogue that says nothing only changes the end of the first. -/
theorem play_bind_silent (d : Dialogue α) (f : α → Dialogue β)
    (g : α → Except StoreError β)
    (silent : ∀ a said, (f a).play c said = ([], g a)) :
    (d >>= f).play c said = ((d.play c said).1, (d.play c said).2 >>= g) := by
  show (d.bind f).play c said = _
  induction d generalizing said with
  | done a => exact silent a said
  | fail e => rfl
  | clock next ih =>
      simp only [Dialogue.bind, play, ih]
  | ask q next ih =>
      simp only [Dialogue.bind, play]
      cases c.answer said q with
      | ok a => simp only [ih]
      | error e => rfl

/-- Beside a backend that nobody else talks to, a conversation ends as the
run does. -/
theorem play_counterpart {σ : Type} (B : Backend σ) (now : UInt64) (s : σ)
    (d : Dialogue α) (m : Metrics) :
    (d.play (B.counterpart now s) said).2
      = (d.run B now (B.after now s said, m)).1 := by
  induction d generalizing said m with
  | done a => rfl
  | fail e => rfl
  | clock next ih =>
      have hafter : B.after now s (said ++ [.clock now])
          = B.after now s said := by rw [B.after_append]; rfl
      have hnext := ih now (said ++ [.clock now]) m
      rw [hafter] at hnext
      exact hnext
  | ask q next ih =>
      unfold play run
      cases hanswer : B.answer q now (B.after now s said) with
      | mk reply u =>
          have hreply : (B.counterpart now s).answer said q = reply :=
            congrArg Prod.fst hanswer
          rw [hreply]
          cases reply with
          | error e => rfl
          | ok a =>
              have hafter : B.after now s (said ++ [.told q a]) = u := by
                rw [B.after_append]
                exact congrArg Prod.snd hanswer
              have hnext := fun m => ih a (said ++ [.told q a]) m
              rw [hafter] at hnext
              exact hnext _

end Dialogue

-- ============================================================== the form

namespace Cache

/-- What can be said while an entry is put in some number of rounds, and what
the rounds come to. -/
inductive Putting (key : EntryKey) (entry : Entry) :
    Nat → List Exchange → Except StoreError (Option PutOutcome) → Prop
  /-- No round is left. -/
  | spent : Putting key entry 0 [] (.ok none)
  | putRefused (n : Nat) (e : StoreError) :
      Putting key entry (n + 1)
        [.refused (.put key entry.encode entry.expiresAt) e] (.error e)
  | stored (n : Nat) (version : UInt64) :
      Putting key entry (n + 1)
        [.told (.put key entry.encode entry.expiresAt) (.stored version)]
        (.ok (some (.stored entry)))
  | unreadable (n : Nat) (occupant : Versioned) (e : CodecError)
      (hread : Entry.decode occupant.value = .error e) :
      Putting key entry (n + 1)
        [.told (.put key entry.encode entry.expiresAt) (.held occupant)]
        (.error (.codec e))
  | held (n : Nat) (occupant : Versioned) (current : Entry) (now : UInt64)
      (hread : Entry.decode occupant.value = .ok current)
      (hlive : current.isExpiredAt now = false) :
      Putting key entry (n + 1)
        [.told (.put key entry.encode entry.expiresAt) (.held occupant),
          .clock now]
        (.ok (some (.held current)))
  | swapRefused (n : Nat) (occupant : Versioned) (current : Entry)
      (now : UInt64) (e : StoreError)
      (hread : Entry.decode occupant.value = .ok current)
      (hdead : current.isExpiredAt now = true) :
      Putting key entry (n + 1)
        [.told (.put key entry.encode entry.expiresAt) (.held occupant),
          .clock now,
          .refused (.swap key occupant.version entry.encode entry.expiresAt) e]
        (.error e)
  | swapped (n : Nat) (occupant : Versioned) (current : Entry) (now : UInt64)
      (version : UInt64)
      (hread : Entry.decode occupant.value = .ok current)
      (hdead : current.isExpiredAt now = true) :
      Putting key entry (n + 1)
        [.told (.put key entry.encode entry.expiresAt) (.held occupant),
          .clock now,
          .told (.swap key occupant.version entry.encode entry.expiresAt)
            (.swapped version)]
        (.ok (some (.stored entry)))
  /-- The swap was lost, and the rest is said in the rounds that are left. -/
  | lost (n : Nat) (occupant : Versioned) (current : Entry) (now : UInt64)
      (rest : List Exchange) (r : Except StoreError (Option PutOutcome))
      (hread : Entry.decode occupant.value = .ok current)
      (hdead : current.isExpiredAt now = true)
      (hrest : Putting key entry n rest r) :
      Putting key entry (n + 1)
        (.told (.put key entry.encode entry.expiresAt) (.held occupant)
          :: .clock now
          :: .told (.swap key occupant.version entry.encode entry.expiresAt)
            .mismatch
          :: rest)
        r

variable (c : Counterpart) (said : List Exchange) (key : EntryKey)
  (entry : Entry)

/-- Every conversation in which an entry is put has the form. -/
theorem putting_putWith (n : Nat) :
    Putting key entry n ((putWith key entry n).play c said).1
      ((putWith key entry n).play c said).2 := by
  induction n generalizing said with
  | zero => exact .spent
  | succ n ih =>
      unfold putWith
      rw [play_query]
      cases c.answer said (.put key entry.encode entry.expiresAt) with
      | error e => exact .putRefused n e
      | ok answer =>
          cases answer with
          | stored version => exact .stored n version
          | held occupant =>
              cases hread : Entry.decode occupant.value with
              | error e =>
                  simp only [decoded, hread]
                  exact .unreadable n occupant e hread
              | ok current =>
                  simp only [decoded, hread]
                  show Putting key entry (n + 1) (_ :: (play c (now >>= _) _).1)
                    (play c (now >>= _) _).2
                  rw [play_now]
                  generalize c.clock _ = at_
                  cases hdead : current.isExpiredAt at_ with
                  | false => exact .held n occupant current at_ hread hdead
                  | true =>
                      simp only [Bool.not_true, Bool.false_eq_true, if_false]
                      rw [play_query]
                      cases c.answer _ (.swap key occupant.version entry.encode
                        entry.expiresAt) with
                      | error e =>
                          exact .swapRefused n occupant current at_ e hread hdead
                      | ok answer =>
                          cases answer with
                          | swapped version =>
                              exact .swapped n occupant current at_ version hread
                                hdead
                          | mismatch =>
                              exact .lost n occupant current at_ _ _ hread hdead
                                (ih _)

-- =========================================================== what it says

namespace Putting

variable {key : EntryKey} {entry : Entry} {n : Nat} {xs : List Exchange}
  {r : Except StoreError (Option PutOutcome)}

/-- One put and at most one swap a round. -/
theorem rounds (h : Putting key entry n xs r) :
    xs.countP (Exchange.asks Query.isPut) ≤ n
      ∧ xs.countP (Exchange.asks Query.isSwap) ≤ n := by
  induction h with
  | spent => exact ⟨Nat.le_refl _, Nat.le_refl _⟩
  | lost n occupant current now rest r hread hdead hrest ih =>
      simp [List.countP_cons, Exchange.asks, Exchange.query?, Query.isPut,
        Query.isSwap]
      omega
  | _ =>
      simp [List.countP_cons, Exchange.asks, Exchange.query?, Query.isPut,
        Query.isSwap]

/-- Nothing is asked but to write the entry under its key. -/
theorem writes (h : Putting key entry n xs r) :
    ∀ x ∈ xs, ∀ q, x.query? = some q →
      q.written? = some (key, entry.encode, entry.expiresAt) := by
  induction h with
  | lost n occupant current now rest r hread hdead hrest ih =>
      simpa [Exchange.query?, Query.written?] using ih
  | _ => simp [Exchange.query?, Query.written?]

/-- Rounds that end without a decision have all lost their swaps. -/
theorem undecided (h : Putting key entry n xs r) (hr : r = .ok none) :
    xs.countP Exchange.lost = n := by
  induction h with
  | spent => rfl
  | lost n occupant current now rest r hread hdead hrest ih =>
      rw [List.countP_cons_of_neg (by simp [Exchange.lost]),
        List.countP_cons_of_neg (by simp [Exchange.lost]),
        List.countP_cons_of_pos (by rfl), ih hr]
  | _ => cases hr

/-- An entry that has been stored is the one to be stored, by one write. -/
theorem stored_once (h : Putting key entry n xs r) {f : Entry}
    (hr : r = .ok (some (.stored f))) :
    f = entry ∧ xs.countP Exchange.wrote = 1 := by
  induction h with
  | stored n version => cases hr; exact ⟨rfl, rfl⟩
  | swapped n occupant current now version hread hdead =>
      cases hr
      exact ⟨rfl, rfl⟩
  | lost n occupant current now rest r hread hdead hrest ih =>
      exact ⟨(ih hr).1, by simpa [Exchange.wrote] using (ih hr).2⟩
  | _ => cases hr

/-- A write that succeeds ends the conversation. -/
theorem last (h : Putting key entry n xs r) {x : Exchange}
    {after : List Exchange} (hx : x :: after <:+ xs) (hw : x.wrote = true) :
    after = [] ∧ r = .ok (some (.stored entry)) := by
  induction h with
  | lost n occupant current now rest r hread hdead hrest ih =>
      simp only [List.suffix_cons_iff, List.cons.injEq] at hx
      rcases hx with ⟨rfl, -⟩ | ⟨rfl, -⟩ | ⟨rfl, -⟩ | hx
      · cases hw
      · cases hw
      · cases hw
      · exact ih hx
  | spent => cases List.suffix_nil.mp hx
  | _ =>
      simp only [List.suffix_cons_iff, List.suffix_nil, List.cons.injEq,
        reduceCtorEq, or_false] at hx
      grind [Exchange.wrote]

/-- What was held is the entry of the occupant reported last, and had not
expired when the clock was read after that. -/
theorem held_last (h : Putting key entry n xs r) {e : Entry}
    (hr : r = .ok (some (.held e))) :
    ∃ occupant now,
      [.told (.put key entry.encode entry.expiresAt) (.held occupant),
        .clock now] <:+ xs
      ∧ Entry.decode occupant.value = .ok e ∧ e.isExpiredAt now = false := by
  induction h with
  | held n occupant current now hread hlive =>
      cases hr
      exact ⟨occupant, now, List.suffix_refl _, hread, hlive⟩
  | lost n occupant current now rest r hread hdead hrest ih =>
      obtain ⟨occupant, now, hlast, he⟩ := ih hr
      exact ⟨occupant, now, hlast.trans (List.suffix_append [_, _, _] rest), he⟩
  | _ => cases hr

/-- An error is the backend's, or that of an occupant that is no entry. -/
theorem error_last (h : Putting key entry n xs r) {e : StoreError}
    (hr : r = .error e) :
    (∃ q, [.refused q e] <:+ xs)
      ∨ ∃ occupant err,
        [.told (.put key entry.encode entry.expiresAt) (.held occupant)] <:+ xs
        ∧ Entry.decode occupant.value = .error err ∧ e = .codec err := by
  induction h with
  | putRefused n e =>
      cases hr
      exact .inl ⟨_, List.suffix_refl _⟩
  | unreadable n occupant err hread =>
      cases hr
      exact .inr ⟨occupant, err, List.suffix_refl _, hread, rfl⟩
  | swapRefused n occupant current now e hread hdead =>
      cases hr
      exact .inl ⟨_, List.suffix_append [_, _] [_]⟩
  | lost n occupant current now rest r hread hdead hrest ih =>
      have hsuffix := List.suffix_append
        [.told (.put key entry.encode entry.expiresAt) (.held occupant),
          .clock now, .told (.swap key occupant.version entry.encode
            entry.expiresAt) .mismatch] rest
      rcases ih hr with ⟨q, hq⟩ | ⟨occupant, err, hput, he⟩
      · exact .inl ⟨q, hq.trans hsuffix⟩
      · exact .inr ⟨occupant, err, hput.trans hsuffix, he⟩
  | _ => cases hr

/-- Before a swap the occupant was reported, was read, and had expired at
the reading of the clock that followed; the swap is of its version. -/
theorem swap_of_expired (h : Putting key entry n xs r) {x : Exchange}
    {after : List Exchange} (hx : x :: after <:+ xs) {k : EntryKey}
    {version : UInt64} {value : Octets} {expiresAt : UInt64}
    (hq : x.query? = some (.swap k version value expiresAt)) :
    ∃ occupant old now,
      .told (.put key entry.encode entry.expiresAt) (.held occupant)
        :: .clock now :: x :: after <:+ xs
      ∧ Entry.decode occupant.value = .ok old ∧ old.isExpiredAt now = true
      ∧ occupant.version = version := by
  induction h with
  | lost n occupant current now rest r hread hdead hrest ih =>
      simp only [List.suffix_cons_iff, List.cons.injEq] at hx
      rcases hx with ⟨rfl, -⟩ | ⟨rfl, -⟩ | ⟨rfl, rfl⟩ | hx
      · cases hq
      · cases hq
      · cases hq
        exact ⟨occupant, current, now, List.suffix_refl _, hread, hdead, rfl⟩
      · obtain ⟨occupant, old, now, hbefore, hold⟩ := ih hx
        exact ⟨occupant, old, now,
          hbefore.trans (List.suffix_append [_, _, _] rest), hold⟩
  | spent => cases List.suffix_nil.mp hx
  | _ =>
      simp only [List.suffix_cons_iff, List.suffix_nil, List.cons.injEq,
        reduceCtorEq, or_false] at hx
      grind [Exchange.query?]

end Putting

-- ============================================================== conduct

/-- What the cache does and concludes when it stores an entry, by what was
said. -/
structure Conduct (key : EntryKey) (entry : Entry) (xs : List Exchange)
    (r : Except StoreError PutOutcome) : Prop where
  puts : xs.countP (Exchange.asks Query.isPut) ≤ 3
  swaps : xs.countP (Exchange.asks Query.isSwap) ≤ 3
  /-- Every query is a conditional write of the entry under the key. -/
  writes : ∀ x ∈ xs, ∀ q, x.query? = some q →
    q.written? = some (key, entry.encode, entry.expiresAt)
  /-- Stored is the entry, if and only if one write succeeded. -/
  stored : r = .ok (.stored entry) ↔ xs.countP Exchange.wrote = 1
  storedEntry : ∀ f, r = .ok (.stored f) → f = entry
  /-- Nothing is said after a write that succeeds. -/
  last : ∀ x after, x :: after <:+ xs → x.wrote = true →
    after = [] ∧ r = .ok (.stored entry)
  /-- Whatever else it comes to, no write has succeeded. -/
  unwritten : (∀ f, r ≠ .ok (.stored f)) → ∀ x ∈ xs, x.wrote = false
  /-- What is held is the occupant reported last, unexpired after that. -/
  held : ∀ e, r = .ok (.held e) → ∃ occupant now,
    [.told (.put key entry.encode entry.expiresAt) (.held occupant),
      .clock now] <:+ xs
    ∧ Entry.decode occupant.value = .ok e ∧ e.isExpiredAt now = false
  /-- An error is the one of the last query, or the last occupant reported is
  no entry, or three swaps have been lost. -/
  error : ∀ e, r = .error e → (∃ q, [.refused q e] <:+ xs)
    ∨ (∃ occupant err,
      [.told (.put key entry.encode entry.expiresAt) (.held occupant)] <:+ xs
      ∧ Entry.decode occupant.value = .error err ∧ e = .codec err)
    ∨ (e = .contention 3 ∧ xs.countP Exchange.lost = 3)
  /-- A swap is asked right after an occupant was reported that is an entry
  and has expired, and is of its version. -/
  swap : ∀ x after, x :: after <:+ xs → ∀ k version value expiresAt,
    x.query? = some (.swap k version value expiresAt) →
    ∃ occupant old now,
      .told (.put key entry.encode entry.expiresAt) (.held occupant)
        :: .clock now :: x :: after <:+ xs
      ∧ Entry.decode occupant.value = .ok old ∧ old.isExpiredAt now = true
      ∧ occupant.version = version

/-- What the rounds come to, with contention in the place of no decision. -/
def concluded : Option PutOutcome → Except StoreError PutOutcome
  | some outcome => .ok outcome
  | none => .error (.contention maxReplaceAttempts)

theorem play_putIfAbsent :
    (putIfAbsent key entry).play c said
      = (((putWith key entry maxReplaceAttempts).play c said).1,
        ((putWith key entry maxReplaceAttempts).play c said).2
          >>= concluded) := by
  unfold putIfAbsent
  refine play_bind_silent c said _ _ concluded fun outcome said => ?_
  cases outcome <;> rfl

theorem concluded_ok {r : Except StoreError (Option PutOutcome)}
    {outcome : PutOutcome} :
    r >>= concluded = .ok outcome ↔ r = .ok (some outcome) := by
  rcases r with e | _ | o <;> constructor <;> intro h <;> cases h <;> rfl

theorem concluded_error {r : Except StoreError (Option PutOutcome)}
    {e : StoreError} (h : r >>= concluded = .error e) :
    r = .error e ∨ (r = .ok none ∧ e = .contention 3) := by
  rcases r with e | _ | o
  · cases h
    exact .inl rfl
  · cases h
    exact .inr ⟨rfl, rfl⟩
  · cases h

/-- A conversation of three rounds, with its conclusion, is as it should
be. -/
theorem Putting.conduct {key : EntryKey} {entry : Entry} {xs : List Exchange}
    {r : Except StoreError (Option PutOutcome)}
    (h : Putting key entry maxReplaceAttempts xs r) :
    Conduct key entry xs (r >>= concluded) := by
  have effective : ∀ x after, x :: after <:+ xs → x.wrote = true →
      after = [] ∧ r >>= concluded = .ok (.stored entry) := by
    intro x after hx hw
    obtain ⟨hnil, hr⟩ := h.last hx hw
    exact ⟨hnil, concluded_ok.mpr hr⟩
  have effective_mem : ∀ x ∈ xs, x.wrote = true →
      r >>= concluded = .ok (.stored entry) := by
    intro x hx hw
    obtain ⟨before, after, rfl⟩ := List.append_of_mem hx
    exact (effective x after (List.suffix_append before _) hw).2
  refine ⟨h.rounds.1, h.rounds.2, h.writes, ⟨fun hr => ?_, fun hone => ?_⟩,
    fun f hf => ?_, effective, fun hno x hx => ?_, fun e he => ?_,
    fun e he => ?_, ?_⟩
  · exact (h.stored_once (concluded_ok.mp hr)).2
  · obtain ⟨x, hx, hw⟩ := List.countP_pos_iff.mp (hone ▸ Nat.one_pos)
    exact effective_mem x hx hw
  · exact (h.stored_once (concluded_ok.mp hf)).1
  · exact Bool.eq_false_iff.mpr fun hw => hno entry (effective_mem x hx hw)
  · exact h.held_last (concluded_ok.mp he)
  · rcases concluded_error he with hr | ⟨hr, rfl⟩
    · exact (h.error_last hr).imp_right .inl
    · exact .inr (.inr ⟨rfl, h.undecided hr⟩)
  · intro x after hx k version value expiresAt hq
    exact h.swap_of_expired hx hq

/-- Whatever a counterpart answers, an entry is stored in at most three
rounds, and the outcome says what has been written. A run over a backend is
such a conversation: its outcome is the one of talking to that backend. -/
theorem putIfAbsent_conduct :
    (∃ xs r, (putIfAbsent key entry).play c said = (xs, r)
      ∧ Conduct key entry xs r)
    ∧ ∀ (σ : Type) (B : Backend σ) (now : UInt64) (s : σ) (m : Metrics),
      ((putIfAbsent key entry).play (B.counterpart now s) []).2
        = ((putIfAbsent key entry).run B now (s, m)).1 := by
  refine ⟨?_, fun σ B now s m =>
    play_counterpart [] B now s (putIfAbsent key entry) m⟩
  rw [play_putIfAbsent]
  exact ⟨_, _, rfl,
    (putting_putWith c said key entry maxReplaceAttempts).conduct⟩

end Cache

end OnceProxy.Store
