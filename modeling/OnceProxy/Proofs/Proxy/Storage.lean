/-
What the events of a system do to its store.

Most do nothing. A sweep drops what has expired, a request that finds its
own result may move the expiry, and a leader whose call was answered in
time with a final response writes the entry for it where no entry is live
(`Writing`). These are changes of a store in the sense of
`Proofs/Store/Changes`, so a store of entries remains one and live entries
survive. Responses have to fit into memory for that, as all that events
bring does (`Event.Fits`).
-/
import OnceProxy.Proofs.Entry.OfResponse
import OnceProxy.Proofs.Proxy.Moves

namespace OnceProxy.Proxy

open Http Store

-- =============================================================== lengths

/-- The lengths of what an event brings are numbers of 64 bits, as those of
everything that is held in memory. -/
def Event.Fits : Event → Prop
  | .arrive _ _ r =>
      (Octets.ofText r.method.text).length < 2 ^ 64
        ∧ (Octets.ofText (RequestPath.normalize r.path)).length < 2 ^ 64
  | .answer _ (.ok response) => response.Fits
  | _ => True

instance : (e : Event) → Decidable e.Fits
  | .arrive .. => instDecidableAnd
  | .answer _ (.ok response) => inferInstanceAs (Decidable response.Fits)
  | .answer _ (.error _) | .lead .. | .timeout _ | .crash .. | .wake _
  | .leave _ | .elapse _ | .advance _ | .setPolicy .. | .sweep => .isTrue trivial

/-- The entry that a leader makes of a response fits. -/
theorem fits_entryFor {response : Response} (h : response.Fits)
    (r : Prepared) (policy : Policy) (now : UInt64) :
    (r.entryFor policy response now).Fits :=
  Entry.fits_ofResponse h ..

namespace System

-- ============================================================== writings

/-- What an event does to the store. -/
inductive Writing (s : System MemoryStore) (e : Event) :
    MemoryStore → Prop where
  /-- Nothing. -/
  | none : Writing s e s.store
  /-- What has expired is dropped. -/
  | swept (event : e = .sweep) : Writing s e (s.store.purge s.now)
  /-- A request finds its own result and moves the expiry. -/
  | refreshed (site : Nat) (caller : CallerId) (r : Prepared)
      (found : Entry) (duration : Nat)
      (attempts : s.attempt? e = some (site, caller, r))
      (live : s.live? r.fingerprint.entryKey = some found)
      (own : found.answers r.fingerprint = true) :
      Writing s e (s.store.extend s.now r.fingerprint.entryKey duration)
  /-- A leader stores the entry for a final response that came in time. -/
  | inserted (l : Leader) (c : OpenCall) (response : Response)
      (event : e = .answer c.call (.ok response))
      (leads : s.leaderOf c.call = some l) (waits : l.waiting = some c)
      (inTime : s.elapsed ≤ c.deadline)
      (final : l.policy.isDefinitive response.status = true)
      (free : s.live? l.guard.key = .none) :
      Writing s e (s.store.writeEntry l.guard.key
        (l.request.entryFor l.policy response s.now))

/-- A look-up refreshes an entry or leaves the store alone. -/
theorem LookedUp.writing {s : System MemoryStore} {e : Event} {site : Nat}
    {caller : CallerId} {r : Prepared} {policy : Policy}
    {x : Option (Except ProxyError Replay)} {st : MemoryStore}
    (h : LookedUp s.store s.now r policy x st)
    (attempts : s.attempt? e = some (site, caller, r)) : Writing s e st := by
  cases h with
  | missed missing => exact .none
  | conflict found live foreign => exact .none
  | hit found live own =>
      split
      · exact .refreshed site caller r found _ attempts live own
      · exact .none

/-- What an event does to the store is a writing. -/
theorem Move.writing {s t : System MemoryStore} {e : Event}
    (h : Move s e t) : Writing s e t.store := by
  cases h.deed with
  | attempted site caller r i key t there keyed attempt =>
      have attempts := attempt?_arrive there keyed caller
      obtain ⟨policy, x, hlook, -⟩ := h.lookedUp attempts
      exact hlook.writing attempts
  | retried w t waits isOver more attempt =>
      have attempts := attempt?_wake waits isOver more
      obtain ⟨policy, x, hlook, -⟩ := h.lookedUp attempts
      exact hlook.writing attempts
  | called l st m leads idle look =>
      rw [converse_get h.stored] at look
      obtain rfl : s.store = st := congrArg System.store (Prod.mk.inj look).2
      exact .none
  | ended e l how st m close =>
      cases close.ending h.stored with
      | stored l c response leads waits inTime final free =>
          exact .inserted l c response rfl leads waits inTime final free
      | found | unanswered | unfinal | held | late | died => exact .none
  | swept m => exact .swept rfl
  | refused | passed | passerAnswered | passerLate | settled | exhausted
  | left | elapsed | advanced | policySet => exact .none

/-- A writing is a change of the store. -/
theorem Writing.change {s : System MemoryStore} {e : Event}
    {store : MemoryStore} (h : Writing s e store) (hfits : e.Fits) :
    Change s.now s.store store := by
  cases h with
  | none => exact .idle
  | swept event => exact .swept
  | refreshed site caller r found duration attempts live own =>
      exact .extended _ duration
  | inserted l c response event leads waits inTime final free =>
      subst event
      exact .inserted _ _ (fits_entryFor hfits ..) free

end System

end OnceProxy.Proxy
