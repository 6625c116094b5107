/-
Which results are repetitions.

A result is a repetition if the entry behind it was in the store before: the
lookup for its caller has found it there, or the leader of the caller's flight
has (`FromStore`). All other results come from the origin (`FromOrigin`): the
leader's own call has produced the entry, or the response to a request without
key was handed through. Nothing here looks at what a reply says of itself;
that it says the same is proved (`RepliesAt.cases_source`, `FromStore.reply`).
-/
import OnceProxy.Proofs.Proxy.Fidelity
import OnceProxy.Proofs.Proxy.Provenance

namespace OnceProxy.Proxy.System

open Http Store MemoryStore

-- ================================================================ sources

/-- The result that an event gives a caller was in the store before. -/
inductive FromStore (s₀ : System MemoryStore) (events : List Event) (n : Nat)
    (caller : CallerId) : Entry → Prop where
  /-- The event looks up the caller's request, and the entry is there. -/
  | looked (e : Event) (s : System MemoryStore) (site : Nat) (r : Prepared)
      (entry : Entry) (event : events[n]? = some e)
      (here : s₀.after? events n = some s)
      (attempts : s.attempt? e = some (site, caller, r))
      (live : s.live? r.fingerprint.entryKey = some entry) :
      FromStore s₀ events n caller entry
  /-- The event tells the caller of its flight, which has ended with an entry
  that was there already. -/
  | flown (s u : System MemoryStore) (w : Waiter) (k : Nat) (l : Leader)
      (result : Resolution) (event : events[n]? = some (.wake caller))
      (here : s₀.after? events n = some s)
      (waits : s.waiters.find? (·.caller = caller) = some w)
      (site : l.site = w.site) (flight : l.guard.id = w.flight)
      (before : k < n)
      (ended : EndedAt s₀ events k l (.completed (.ok result)))
      (earlier : s₀.after? events k = some u)
      (live : u.live? l.guard.key = some result.entry) :
      FromStore s₀ events n caller result.entry

/-- An event gives a caller a result that was in the store before. -/
def IsRepetition (s₀ : System MemoryStore) (events : List Event) (n : Nat)
    (caller : CallerId) : Prop :=
  ∃ entry, FromStore s₀ events n caller entry

/-- The result that an event gives a caller is a response of the origin. -/
inductive FromOrigin (s₀ : System MemoryStore) (events : List Event) (n : Nat)
    (caller : CallerId) (response : Response) : Prop where
  /-- The event tells the caller of its flight, whose leader's own call was
  answered with it. -/
  | flown (s : System MemoryStore) (w : Waiter) (k : Nat) (l : Leader)
      (entry : Entry) (event : events[n]? = some (.wake caller))
      (here : s₀.after? events n = some s)
      (waits : s.waiters.find? (·.caller = caller) = some w)
      (site : l.site = w.site) (flight : l.guard.id = w.flight)
      (before : k < n) (produced : Produced s₀ events k l response entry) :
      FromOrigin s₀ events n caller response
  /-- The event answers the caller's own call, for a request without key. -/
  | passed (s : System MemoryStore) (p : Passer)
      (event : events[n]? = some (.answer p.waiting.call (.ok response)))
      (here : s₀.after? events n = some s) (waits : p ∈ s.passers)
      (whose : p.caller = caller) : FromOrigin s₀ events n caller response

section Runs

variable {s₀ : System MemoryStore} {events : List Event} {n : Nat}
  {caller : CallerId} {x : Replay}

/-- The origin has sent this response in the run. -/
theorem FromOrigin.answered {response : Response}
    (h : FromOrigin s₀ events n caller response) :
    ∃ call, .answer call (.ok response) ∈ events := by
  cases h with
  | flown s w k l entry event here waits site flight before produced =>
      obtain ⟨c, u, v, hanswer, -⟩ := produced
      exact ⟨c.call, List.mem_of_getElem? hanswer⟩
  | passed s p event here waits whose =>
      exact ⟨p.waiting.call, List.mem_of_getElem? event⟩

/-- A waiting caller whose request is looked up once more has lost its
leader. -/
theorem aborted_of_attempt {s : System MemoryStore} {site : Nat}
    {who : CallerId} {r : Prepared} {w : Waiter}
    (attempts : s.attempt? (.wake caller) = some (site, who, r))
    (waits : s.waiters.find? (·.caller = caller) = some w) :
    s.outcome? w.site w.flight = some .aborted := by
  rcases attempt?_spec attempts with ⟨q, i, key, harrive, -⟩
    | ⟨v, hwake, hv, haborted, -⟩
  · cases harrive
  · cases hwake
    obtain rfl := Option.some.inj (hv.symm.trans waits)
    exact haborted

variable (fresh : s₀.Fresh) (fits : ∀ e ∈ events, e.Fits)

include fresh fits

/-- Every result comes out of the store or from the origin, and is said to be
a repetition in the first case only. -/
theorem RepliesAt.cases_source (h : RepliesAt s₀ events n caller (.ok x)) :
    (∃ entry, FromStore s₀ events n caller entry ∧ x = .ofEntry entry true)
      ∨ ∃ response, FromOrigin s₀ events n caller response
        ∧ x.replayed = false ∧ x.Mirrors response := by
  obtain ⟨s, t, hs, ht, hn, hreplies⟩ := h
  have he := List.getElem?_eq_getElem hn
  generalize events[n] = e at he
  cases (move_of_after fresh fits he hs ht).grant hreplies with
  | hit site r found attempts live own =>
      exact .inl ⟨found, .looked e s site r found he hs attempts live, rfl⟩
  | settled w result event waits isOver own =>
      subst event
      obtain ⟨a, k, l, -, hkn, -, hsite, hguard, hended⟩ :=
        waiter_ended fresh fits (Nat.le_of_lt hn) hs
          (List.mem_of_find?_eq_some waits) isOver
      have hflight : l.guard.id = w.flight := congrArg (·.id) hguard
      rcases hended.result with ⟨hmet, u, hu, hlive⟩ | ⟨hown, response, hproduced⟩
      · refine .inl ⟨result.entry, .flown s u w k l result he hs waits hsite
          hflight hkn hended hu hlive, ?_⟩
        rw [hmet]
        rfl
      · refine .inr ⟨response, .flown s w k l result.entry he hs waits hsite
          hflight hkn hproduced, ?_⟩
        obtain ⟨c, u, v, -, -, -, -, -, -, -, -, hentry, -⟩ := hproduced
        rw [hown, hentry]
        exact ⟨rfl, (Gives.ofResponse ..).mirrors false⟩
  | passed p response event waits whose =>
      subst event
      exact .inr ⟨response, .passed s p he hs waits whose, rfl, rfl, rfl,
        fun _ => rfl⟩

/-- What was in the store is given as a repetition. -/
theorem FromStore.reply {entry : Entry}
    (h : FromStore s₀ events n caller entry)
    (hreply : RepliesAt s₀ events n caller (.ok x)) :
    x = .ofEntry entry true := by
  obtain ⟨s, t, hs, ht, hn, hreplies⟩ := hreply
  have he := List.getElem?_eq_getElem hn
  generalize events[n] = e at he
  have hgrant := (move_of_after fresh fits he hs ht).grant hreplies
  cases h with
  | looked e' s' site r entry event here attempts live =>
      obtain rfl := Option.some.inj (event.symm.trans he)
      obtain rfl := Option.some.inj (here.symm.trans hs)
      cases hgrant with
      | hit site' r' found attempts' live' own =>
          cases Option.some.inj (attempts.symm.trans attempts')
          rw [Option.some.inj (live.symm.trans live')]
      | settled w result event waits isOver own =>
          subst event
          cases (aborted_of_attempt attempts waits).symm.trans isOver
      | passed p response event waits whose =>
          subst event
          cases attempts
  | flown s' u w k l result event here waits site flight before ended earlier
      live =>
      obtain rfl := Option.some.inj (event.symm.trans he)
      obtain rfl := Option.some.inj (here.symm.trans hs)
      have hover := ended.outcome fresh fits before (Nat.le_of_lt hn) hs
      rw [site, flight] at hover
      cases hgrant with
      | hit site' r found attempts live' own =>
          cases (aborted_of_attempt attempts waits).symm.trans hover
      | settled w' result' event' waits' isOver own =>
          obtain rfl := Option.some.inj (waits.symm.trans waits')
          cases hover.symm.trans isOver
          -- the leader's own call produces nothing where an entry is live
          rcases ended.result with ⟨hmet, -⟩ | ⟨-, response, hproduced⟩
          · rw [hmet]
            rfl
          · obtain ⟨c, u', v, -, hu', -, -, -, -, -, hfree, -⟩ := hproduced
            obtain rfl := Option.some.inj (hu'.symm.trans earlier)
            rw [hfree] at live
            cases live
      | passed p response event' waits' whose => cases event'

/-- It was there at the start, or an earlier call of the run has made it. -/
theorem FromStore.stored {entry : Entry} (hn : n ≤ events.length)
    (h : FromStore s₀ events n caller entry) :
    ∃ key, (∃ f, s₀.store.held? key = some f ∧ f.sameResult entry = true)
      ∨ ∃ k l response, MadeBy s₀ events n key entry k l response := by
  cases h with
  | looked e s site r entry event here attempts live =>
      exact ⟨_, held_or_madeBy fresh fits hn here (live?_eq_some.mp live).1⟩
  | flown s u w k l result event here waits site flight before ended earlier
      live =>
      have hk := Nat.le_trans (Nat.le_of_lt before) hn
      refine ⟨_, (held_or_madeBy fresh fits hk earlier
        (live?_eq_some.mp live).1).imp_right ?_⟩
      intro ⟨m, o, response, hmade⟩
      exact ⟨m, o, response, hmade.mono (Nat.le_of_lt before)⟩

end Runs

end OnceProxy.Proxy.System
