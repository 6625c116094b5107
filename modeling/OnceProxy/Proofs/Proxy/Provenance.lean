/-
Provenance: no request is answered with the result of another.

Store and flights are addressed by the key alone, so a request may meet the
entry of any other request with its key. What keeps it from being answered
with that is the entry's identity: the entry was made for the request of
the leader whose call produced it (`MadeBy`), and an entry answers exactly
the requests with that identity. Where the hash has no collision among the
strings hashed in the run, requests of one identity agree in method, path
in normal form, key and body.

The hash is left alone here. `CollisionFree` speaks of the strings of one
run, and nothing else is assumed of it.
-/
import OnceProxy.Proofs.Fingerprint
import OnceProxy.Proofs.Proxy.Results
import OnceProxy.Proofs.RequestPath

namespace OnceProxy.Proxy.System

open Crypto Http Origin Store MemoryStore

-- ================================================================ hashes

/-- The octet strings that are hashed for the identities of the keyed
requests in a run. -/
def Hashed (events : List Event) (x : Octets) : Prop :=
  ∃ (a site : Nat) (caller : CallerId) (q : Incoming)
      (key : IdempotencyKey),
    events[a]? = some (.arrive site caller q) ∧ q.HasKey key
    ∧ (x = Fingerprint.identityInput q.method
        (RequestPath.normalize q.path) key q.body
      ∨ x = q.body)

/-- No two of them have one digest. -/
def CollisionFree (events : List Event) : Prop :=
  ∀ x y, Hashed events x → Hashed events y → keccak256 x = keccak256 y →
    x = y

/-- The requests differ in method, path in normal form or body. -/
def Differs (r o : Prepared) : Prop :=
  r.method ≠ o.method ∨ r.path ≠ o.path ∨ r.body ≠ o.body

section Identities

variable {events : List Event} (fits : ∀ e ∈ events, e.Fits)
  (free : CollisionFree events)

include fits free

/-- Requests of one identity are one request, but for their header
fields. -/
theorem same_request {a b site site' : Nat} {caller caller' : CallerId}
    {r o : Prepared} (hr : ArrivedAt events a site caller r)
    (ho : ArrivedAt events b site' caller' o)
    (h : r.fingerprint.id = o.fingerprint.id) :
    r.method = o.method ∧ r.path = o.path ∧ r.key = o.key
      ∧ r.body = o.body := by
  obtain ⟨q, k, ha, hk, rfl⟩ := hr
  obtain ⟨p, l, hb, hl, rfl⟩ := ho
  have hinput := free _ _ ⟨a, site, caller, q, k, ha, hk, .inl rfl⟩
    ⟨b, site', caller', p, l, hb, hl, .inl rfl⟩ h
  obtain ⟨hq, hq'⟩ := fits _ (List.mem_of_getElem? ha)
  obtain ⟨hp, hp'⟩ := fits _ (List.mem_of_getElem? hb)
  rw [← RequestPath.normalize_normalize] at hq' hp'
  obtain ⟨hmethod, hpath, hkey, hcontent⟩ :=
    Fingerprint.identityInput_inj hq hp hq' hp' hinput
  rw [RequestPath.normalize_normalize, RequestPath.normalize_normalize]
    at hpath
  have hbody := free _ _ ⟨a, site, caller, q, k, ha, hk, .inr rfl⟩
    ⟨b, site', caller', p, l, hb, hl, .inr rfl⟩ hcontent
  exact ⟨hmethod, hpath, hkey, hbody⟩

end Identities

-- =============================================================== entries

/-- Before this instant a leader's call produced the result that this entry
carries, under this key. -/
def MadeBy (s₀ : System MemoryStore) (events : List Event) (i : Nat)
    (key : EntryKey) (entry : Entry) (k : Nat) (l : Leader)
    (response : Response) : Prop :=
  ∃ made, k < i ∧ Produced s₀ events k l response made ∧ l.guard.key = key
    ∧ made.sameResult entry = true

section Runs

variable {s₀ : System MemoryStore} {events : List Event}

/-- Moving an expiry makes no other result. -/
theorem MadeBy.sameResult {i k : Nat} {key : EntryKey} {entry f : Entry}
    {l : Leader} {response : Response}
    (h : MadeBy s₀ events i key entry k l response)
    (hsame : entry.sameResult f = true) :
    MadeBy s₀ events i key f k l response := by
  obtain ⟨made, hki, hproduced, hkey, hmade⟩ := h
  exact ⟨made, hki, hproduced, hkey, Entry.sameResult_trans hmade hsame⟩

/-- What was made before an instant was made before a later one. -/
theorem MadeBy.mono {i j k : Nat} {key : EntryKey} {entry : Entry}
    {l : Leader} {response : Response}
    (h : MadeBy s₀ events i key entry k l response) (hij : i ≤ j) :
    MadeBy s₀ events j key entry k l response := by
  obtain ⟨made, hki, hrest⟩ := h
  exact ⟨made, Nat.lt_of_lt_of_le hki hij, hrest⟩

/-- The entry carries the identity of the leader's request. -/
theorem MadeBy.fingerprint {i k : Nat} {key : EntryKey} {entry : Entry}
    {l : Leader} {response : Response}
    (h : MadeBy s₀ events i key entry k l response) :
    entry.fingerprint = l.request.fingerprint.id := by
  obtain ⟨made, -, hproduced, -, hsame⟩ := h
  obtain ⟨c, u, v, -, -, -, -, -, -, -, -, hmade, -⟩ := hproduced
  rw [Entry.sameResult_iff.mp hsame, hmade]
  rfl

/-- The entry gives back the response that it was made of. -/
theorem MadeBy.reply {i k : Nat} {key : EntryKey} {entry : Entry}
    {l : Leader} {response : Response}
    (h : MadeBy s₀ events i key entry k l response) (replayed : Bool) :
    Replay.ofEntry entry replayed
      = ⟨response.status, ⟨response.headers.cacheable.grouped⟩,
        response.body, replayed⟩ := by
  obtain ⟨made, -, hproduced, -, hsame⟩ := h
  obtain ⟨c, u, v, -, -, -, -, -, -, -, -, hmade, -⟩ := hproduced
  rw [Entry.sameResult_iff.mp hsame, hmade]
  show Replay.mk (Entry.statusCode (.ofResponse ..))
    (Entry.headerMap (.ofResponse ..)) response.body replayed = _
  rw [Entry.statusCode_ofResponse, Entry.headerMap_ofResponse]

variable (fresh : s₀.Fresh) (fits : ∀ e ∈ events, e.Fits)

include fresh fits

/-- The call that made an entry was sent for a request that arrived. -/
theorem MadeBy.call {i k : Nat} (hi : i ≤ events.length) {key : EntryKey}
    {entry : Entry} {l : Leader} {response : Response}
    (h : MadeBy s₀ events i key entry k l response) :
    k < i ∧ (∃ a caller, ArrivedAt events a l.site caller l.request)
      ∧ ∃ call u sent, events[k]? = some (.answer call (.ok response))
        ∧ s₀.after? events k = some u
        ∧ u.calls[call]? = some (l.request.outbound l.policy sent) := by
  obtain ⟨made, hki, ⟨c, u, v, he, hu, -, hleads, hwaits, -⟩, -⟩ := h
  have hk := Nat.le_trans (Nat.le_of_lt hki) hi
  have hl := List.mem_of_find?_eq_some hleads
  obtain ⟨a, caller, -, harrived⟩ :=
    (origins_after fresh fits hk hu).leaders l hl
  obtain ⟨sent, hcall⟩ := call_on_record fresh fits hk hu hl hwaits
  exact ⟨hki, ⟨a, caller, harrived⟩, c.call, u, sent, he, hu, hcall⟩

/-- An entry answers requests like the one it was made for. -/
theorem MadeBy.same_request (free : CollisionFree events) {i k : Nat}
    (hi : i ≤ events.length) {key : EntryKey} {entry : Entry} {l : Leader}
    {response : Response} (h : MadeBy s₀ events i key entry k l response)
    {a site : Nat} {caller : CallerId} {r : Prepared}
    (hr : ArrivedAt events a site caller r)
    (hanswers : entry.answers r.fingerprint = true) :
    l.request.method = r.method ∧ l.request.path = r.path
      ∧ l.request.key = r.key ∧ l.request.body = r.body := by
  obtain ⟨-, ⟨b, who, hl⟩, -⟩ := h.call fresh fits hi
  unfold Entry.answers at hanswers
  rw [decide_eq_true_eq, h.fingerprint] at hanswers
  exact System.same_request fits free hl hr hanswers

/-- It does not answer a request that differs. -/
theorem MadeBy.foreign (free : CollisionFree events) {i k : Nat}
    (hi : i ≤ events.length) {key : EntryKey} {entry : Entry} {l : Leader}
    {response : Response} (h : MadeBy s₀ events i key entry k l response)
    {a site : Nat} {caller : CallerId} {r : Prepared}
    (hr : ArrivedAt events a site caller r) (hdiffers : Differs l.request r) :
    entry.answers r.fingerprint = false := by
  rw [Bool.eq_false_iff]
  intro hanswers
  obtain ⟨hmethod, hpath, -, hbody⟩ :=
    h.same_request fresh fits free hi hr hanswers
  rcases hdiffers with hne | hne | hne
  · exact hne hmethod
  · exact hne hpath
  · exact hne hbody

/-- Every entry in the store has the result of one that was there at the
start, or was made by a call of the run. -/
theorem held_or_madeBy {i : Nat} (hi : i ≤ events.length)
    {s : System MemoryStore} (hs : s₀.after? events i = some s)
    {key : EntryKey} {entry : Entry} (h : s.store.held? key = some entry) :
    (∃ f, s₀.store.held? key = some f ∧ f.sameResult entry = true)
      ∨ ∃ k l response, MadeBy s₀ events i key entry k l response := by
  refine move_induction fresh fits (P := fun i s => ∀ key entry,
    s.store.held? key = some entry →
      (∃ f, s₀.store.held? key = some f ∧ f.sameResult entry = true)
        ∨ ∃ k l response, MadeBy s₀ events i key entry k l response)
    after?_zero (fun key entry h => .inl ⟨entry, h, entry.sameResult_refl⟩)
    (fun n e u v _ he hu hv hinv _ hP key entry h => ?_) (Nat.zero_le i) hi
    hs key entry h
  obtain ⟨hstored, -⟩ := hinv
  have hold : ∀ {f : Entry}, u.store.held? key = some f →
      f.sameResult entry = true →
      (∃ f, s₀.store.held? key = some f ∧ f.sameResult entry = true)
        ∨ ∃ k l response, MadeBy s₀ events (n + 1) key entry k l response := by
    intro f hf hsame
    rcases hP key f hf with ⟨g, hg, hgf⟩ | ⟨k, l, response, hmade⟩
    · exact .inl ⟨g, hg, Entry.sameResult_trans hgf hsame⟩
    · exact .inr ⟨k, l, response,
        (hmade.mono (Nat.le_succ n)).sameResult hsame⟩
  rcases store_after fresh fits he hu hv with
    hidle | ⟨-, hpurge⟩
    | ⟨site, caller, r, found, expiry, -, hlive, -, -, hwrite⟩
    | ⟨l, response, made, hproduced⟩
  · rw [hidle] at h
    exact hold h entry.sameResult_refl
  · rw [hpurge, hstored.held?_purge] at h
    exact hold (live?_eq_some.mp h).1 entry.sameResult_refl
  · have hheld := (live?_eq_some.mp hlive).1
    have hfits := hstored.fits hheld
    rw [hwrite, held?_writeEntry (hfits.withExpiry expiry)] at h
    split at h
    · next hkey =>
      subst hkey
      cases h
      exact hold hheld (found.sameResult_withExpiry expiry)
    · exact hold h entry.sameResult_refl
  · rw [hproduced.held?_after fits hu hv] at h
    split at h
    · next hkey =>
      cases h
      exact .inr ⟨n, l, response, entry, Nat.lt_succ_self n, hproduced,
        hkey.symm, entry.sameResult_refl⟩
    · exact hold h entry.sameResult_refl

variable (empty : s₀.store = .empty)

include empty

/-- Every entry in the store was made by a call of the run. -/
theorem madeBy_of_held {i : Nat} (hi : i ≤ events.length)
    {s : System MemoryStore} (hs : s₀.after? events i = some s)
    {key : EntryKey} {entry : Entry} (h : s.store.held? key = some entry) :
    ∃ k l response, MadeBy s₀ events i key entry k l response := by
  rcases held_or_madeBy fresh fits hi hs h with ⟨f, hf, -⟩ | hmade
  · rw [empty] at hf
    cases hf
  · exact hmade

/-- Every entry with which a flight ends was made by a call of the run; by
its own, if the end says so. -/
theorem EndedAt.madeBy {n : Nat} {l : Leader} {result : Resolution}
    (h : EndedAt s₀ events n l (.completed (.ok result))) :
    ∃ k m response,
      MadeBy s₀ events (n + 1) l.guard.key result.entry k m response
        ∧ (result.fresh = true → m = l) := by
  have hn : n < events.length := by
    obtain ⟨e, u, v, he, -⟩ := h
    exact (List.getElem?_eq_some_iff.mp he).1
  rcases h.result with ⟨hfirst, u, hu, hlive⟩ | ⟨-, response, hproduced⟩
  · obtain ⟨k, m, response, hmade⟩ := madeBy_of_held fresh fits empty
      (Nat.le_of_lt hn) hu (live?_eq_some.mp hlive).1
    refine ⟨k, m, response, hmade.mono (Nat.le_succ n), fun hx => ?_⟩
    rw [hfirst] at hx
    cases hx
  · exact ⟨n, l, response, ⟨result.entry, Nat.lt_succ_self n, hproduced, rfl,
      Entry.sameResult_refl _⟩, fun _ => rfl⟩

/-- The entry behind a result was made by a call of the run. -/
theorem Source.madeBy {a n : Nat} (hn : n ≤ events.length)
    {caller : CallerId} {r : Prepared} {x : Replay}
    (h : Source s₀ events a n caller r x) :
    ∃ entry k l response,
      MadeBy s₀ events n r.fingerprint.entryKey entry k l response
        ∧ entry.answers r.fingerprint = true
        ∧ x = .ofEntry entry x.replayed := by
  cases h with
  | found s entry here live own =>
      obtain ⟨k, l, response, hmade⟩ := madeBy_of_held fresh fits empty hn
        here (live?_eq_some.mp live).1
      exact ⟨entry, k, l, response, hmade, own, rfl⟩
  | flown j l result s w since before here waits site flight key ended own =>
      obtain ⟨k, m, response, hmade, -⟩ := ended.madeBy fresh fits empty
      rw [key] at hmade
      exact ⟨result.entry, k, m, response, hmade.mono before, own, rfl⟩

end Runs

-- ============================================================ the theorem

/-- Any number of instances share a store that starts empty, and the hash
has no collision among the strings hashed in the run. Every result of a
request with a key goes back to a call made for a request that agrees with
it in method, path in normal form, key and body, and has the status, the
body and the cacheable header fields of the origin's answer to that call.
Whatever entry a request with a key finds in the store, or its flight has
ended with, was made by a call for some request, and is a conflict if that
request differs. -/
theorem results_have_calls (wall : Int) (policies : List Policy)
    (events : List Event) (fits : ∀ e ∈ events, e.Fits)
    (free : CollisionFree events) :
    (∀ a n caller q key x, Asks events a caller q key →
      RepliesAt (start wall .empty policies) events n caller (.ok x) →
      ∃ k call response policy sent headers u, k < n
        ∧ events[k]? = some (.answer call (.ok response))
        ∧ (start wall .empty policies).after? events k = some u
        ∧ u.calls[call]? = some (Proxy.outbound policy sent q.method
            (RequestPath.normalize q.path) (some key.text) headers q.body)
        ∧ x.status = response.status ∧ x.body = response.body
        ∧ x.headers.fields = response.headers.cacheable.grouped
        ∧ ∀ name, x.headers.values name
          = response.headers.cacheable.values name)
    ∧ (∀ n e s t site caller r entry, events[n]? = some e →
      (start wall .empty policies).after? events n = some s →
      (start wall .empty policies).after? events (n + 1) = some t →
      s.attempt? e = some (site, caller, r) →
      s.live? r.fingerprint.entryKey = some entry →
      ∃ k l response,
        MadeBy (start wall .empty policies) events n
          r.fingerprint.entryKey entry k l response
        ∧ (Differs l.request r →
          t.replies = s.replies ++ [(caller, .error .conflict)]))
    ∧ ∀ n s t caller w result, events[n]? = some (.wake caller) →
      (start wall .empty policies).after? events n = some s →
      (start wall .empty policies).after? events (n + 1) = some t →
      s.waiters.find? (·.caller = caller) = some w →
      s.outcome? w.site w.flight = some (.completed (.ok result)) →
      ∃ k l response,
        MadeBy (start wall .empty policies) events n
          w.request.fingerprint.entryKey result.entry k l response
        ∧ (result.fresh = true → l.site = w.site ∧ l.guard.id = w.flight)
        ∧ (Differs l.request w.request →
          t.replies = s.replies ++ [(caller, .error .conflict)]) := by
  have fresh := fresh_start wall wellStored_empty policies
  refine ⟨fun a n caller q key x hasks hreply => ?_,
    fun n e s t site caller r entry he hs ht hr hlive => ?_,
    fun n s t caller w result he hs ht hw hover => ?_⟩
  · obtain ⟨hsource, -⟩ := hasks.source fresh fits hreply
    obtain ⟨-, -, -, -, hn, -⟩ := hreply
    obtain ⟨entry, k, l, response, hmade, hanswers, hx⟩ :=
      hsource.madeBy fresh fits rfl (Nat.le_of_lt hn)
    obtain ⟨hkn, -, call, u, sent, hk, hu, hcall⟩ :=
      hmade.call fresh fits (Nat.le_of_lt hn)
    obtain ⟨site, harrives⟩ := hasks.arrives
    have hq : ArrivedAt events a site caller (q.prepare key) :=
      ⟨q, key, harrives, hasks.keyed, rfl⟩
    obtain ⟨hmethod, hpath, hkey, hbody⟩ :=
      hmade.same_request fresh fits free (Nat.le_of_lt hn) hq hanswers
    rw [hmade.reply] at hx
    refine ⟨k, call, response, l.policy, sent, l.request.headers, u, hkn, hk,
      hu, ?_, ?_, ?_, ?_, ?_⟩
    · rw [hcall]
      unfold Prepared.outbound
      rw [hmethod, hpath, hkey, hbody]
      rfl
    · rw [hx]
    · rw [hx]
    · rw [hx]
    · intro name
      rw [hx]
      exact Headers.values_grouped _ name
  · have hn := (List.getElem?_eq_some_iff.mp he).1
    obtain ⟨k, l, response, hmade⟩ := madeBy_of_held fresh fits rfl
      (Nat.le_of_lt hn) hs (live?_eq_some.mp hlive).1
    refine ⟨k, l, response, hmade, fun hdiffers => ?_⟩
    obtain ⟨a, -, hr'⟩ :=
      (origins_after fresh fits (Nat.le_of_lt hn) hs).attempt he hr
    have hforeign :=
      hmade.foreign fresh fits free (Nat.le_of_lt hn) hr' hdiffers
    exact (move_of_after fresh fits he hs ht).conflict_of_live hr hlive
      hforeign
  · have hn := (List.getElem?_eq_some_iff.mp he).1
    obtain ⟨a, j, o, -, hjn, harrived, hsite, hguard, hended⟩ :=
      waiter_ended fresh fits (Nat.le_of_lt hn) hs
        (List.mem_of_find?_eq_some hw) hover
    obtain ⟨k, l, response, hmade, hfirst⟩ :=
      hended.madeBy fresh fits rfl
    rw [hguard] at hmade
    have hmade' := hmade.mono hjn
    refine ⟨k, l, response, hmade', fun hx => ?_, fun hdiffers => ?_⟩
    · rw [hfirst hx, hsite, hguard]
      exact ⟨rfl, rfl⟩
    · have hforeign := hmade'.foreign fresh fits free (Nat.le_of_lt hn)
        harrived hdiffers
      exact (move_of_after fresh fits he hs ht).conflict_of_over hw hover
        hforeign

/-- The two strings hashed for the request have two digests. -/
theorem collisionFree_placed : CollisionFree placed := by
  have honly : ∀ x, Hashed placed x →
      x = Fingerprint.identityInput Sample.order.method
        (RequestPath.normalize Sample.order.path) Sample.orderKey
        Sample.order.body ∨ x = Sample.order.body := by
    rintro x ⟨a, site, caller, q, key, ha, ⟨raw, hraw, hkey⟩, hx⟩
    have hlt := (List.getElem?_eq_some_iff.mp ha).1
    match a, hlt with
    | 0, _ =>
        cases ha
        cases hraw
        have hsample : IdempotencyKey.parse "first-order"
            = .ok Sample.orderKey := by decide +kernel
        rw [hsample] at hkey
        cases hkey
        exact hx
    | 1, _ | 2, _ | 3, _ => cases ha
  have hne : keccak256 (Fingerprint.identityInput Sample.order.method
        (RequestPath.normalize Sample.order.path) Sample.orderKey
        Sample.order.body) ≠ keccak256 Sample.order.body := by
    decide +kernel
  intro x y hx hy heq
  rcases honly x hx with rfl | rfl
  · rcases honly y hy with rfl | rfl
    · rfl
    · exact absurd heq hne
  · rcases honly y hy with rfl | rfl
    · exact absurd heq.symm hne
    · rfl

/-- Its result is the origin's answer. -/
theorem results_have_calls_placed :
    ∃ n x, RepliesAt (start 0 .empty [Sample.policy]) placed n 0 (.ok x)
      ∧ ∃ k call response, k < n
        ∧ placed[k]? = some (.answer call (.ok response))
        ∧ x.status = response.status ∧ x.body = response.body := by
  obtain ⟨n, x, hreply⟩ := exists_repliesAt
    (fresh_start 0 wellStored_empty [Sample.policy]) fits_placed 4
    (by decide) 0 (by decide +kernel)
  obtain ⟨k, call, response, policy, sent, headers, u, hkn, hk, -, -, hstatus,
    hbody, -⟩ := (results_have_calls 0 [Sample.policy] placed fits_placed
      collisionFree_placed).1 0 n 0 Sample.order Sample.orderKey x asks_placed
        hreply
  exact ⟨n, x, hreply, k, call, response, hkn, hk, hstatus, hbody⟩

end OnceProxy.Proxy.System
