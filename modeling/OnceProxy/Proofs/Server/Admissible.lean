/-
Which statuses a proxy keeps and repeats.

A configuration is accepted only if every status that it lists for keeping is
one of a response that does not change by itself (`keepable_of_listed`). From
there a status gets into an entry in one place: a leader stores a response
whose status its policy lists. The leader may be at work under a policy that
has been replaced since, so what can be said of its status is that a policy
which was in force at some time lists it (`HadForce`), and this is what holds
of all that is stored (`listed_after`). Purges and refreshes leave the status
of an entry alone, and a reply that repeats a result has the status of an
entry that was stored when the result was found.
-/
import OnceProxy.Proofs.Config.Watch
import OnceProxy.Proofs.Proxy.Lifetime
import OnceProxy.Proofs.Proxy.Repetitions
import OnceProxy.Proofs.Server.Startup

namespace OnceProxy

open Http Store MemoryStore

-- ========================================================= accepted lists

/-- The code of a response that does not change by itself. -/
def Http.Keepable (code : Nat) : Prop :=
  100 ≤ code ∧ code ≤ 499 ∧ code ≠ 401 ∧ code ≠ 403 ∧ code ≠ 429

/-- An accepted configuration lists nothing else. -/
theorem ProxyConfig.keepable_of_listed {c : ProxyConfig}
    (accepted : Config.validate c = .ok c) {status : UInt16}
    (listed : status ∈ c.idempotency.definitiveStatuses) :
    Keepable status.toNat := by
  have hnone := (Config.validate_eq_ok.mp accepted).1
  have hchecks : c.idempotency.definitiveStatuses.flatMap
      (Config.checkStatus "idempotency.definitive_statuses") = [] := by
    simp only [problems, List.append_eq_nil_iff] at hnone
    simp only [hnone]
  have hcheck := List.flatMap_eq_nil_iff.mp hchecks status listed
  unfold Config.checkStatus Config.check Config.isTransient at hcheck
  split at hcheck
  · cases hcheck
  · next hrange =>
    split at hcheck
    · next hpasses =>
      simp only [not_or, UInt16.not_lt, UInt16.le_iff_toNat_le] at hrange
      simp only [Bool.not_or, Bool.and_eq_true, Bool.not_eq_true',
        decide_eq_false_iff_not, beq_eq_false_iff_ne, UInt16.le_iff_toNat_le, ne_eq,
        ← UInt16.toNat_inj] at hpasses
      obtain ⟨⟨⟨h500, h401⟩, h403⟩, h429⟩ := hpasses
      exact ⟨hrange.1, Nat.lt_succ_iff.mp (Nat.not_le.mp h500), h401, h403, h429⟩
    · cases hcheck

/-- A status of three digits is given back as it was stored. -/
theorem Entry.code_statusCode {e : Entry} (h : Keepable e.status.toNat) :
    e.statusCode.code = e.status.toNat := by
  obtain ⟨hlow, hhigh, -⟩ := h
  unfold statusCode Status.ofCode?
  rw [dif_pos ⟨hlow, by omega⟩]
  rfl

/-- A store without records. -/
theorem Store.MemoryStore.wellStored_of_nil {s : MemoryStore} (h : s.records = []) :
    s.WellStored := by
  refine ⟨?_, fun k r hr => ?_⟩
  · unfold Distinct
    rw [h]
    exact List.nodup_nil
  · unfold find? at hr
    rw [h] at hr
    cases hr

namespace Proxy.System

-- =============================================================== in force

/-- The policy has been in force somewhere by the instant. -/
def HadForce (s₀ : System MemoryStore) (events : List Event) (i : Nat)
    (p : Policy) : Prop :=
  ∃ j u site, j ≤ i ∧ s₀.after? events j = some u ∧ u.policy? site = some p

/-- An accepted configuration that has been in force by the instant lists the
status. -/
def Listed (s₀ : System MemoryStore) (events : List Event) (i : Nat)
    (status : UInt16) : Prop :=
  ∃ c signer, Config.validate c = .ok c
    ∧ HadForce s₀ events i (.ofConfig c signer)
    ∧ status ∈ c.idempotency.definitiveStatuses

/-- The policy of an accepted configuration. -/
def Accepted (p : Policy) : Prop :=
  ∃ c signer, Config.validate c = .ok c ∧ p = .ofConfig c signer

variable {s₀ : System MemoryStore} {events : List Event} {i j : Nat}

theorem HadForce.mono {p : Policy} (h : HadForce s₀ events i p) (hij : i ≤ j) :
    HadForce s₀ events j p := by
  obtain ⟨k, u, site, hk, hu, hp⟩ := h
  exact ⟨k, u, site, Nat.le_trans hk hij, hu, hp⟩

theorem Listed.mono {status : UInt16} (h : Listed s₀ events i status)
    (hij : i ≤ j) : Listed s₀ events j status := by
  obtain ⟨c, signer, accepted, hforce, hin⟩ := h
  exact ⟨c, signer, accepted, hforce.mono hij, hin⟩

theorem Listed.keepable {status : UInt16} (h : Listed s₀ events i status) :
    Keepable status.toNat := by
  obtain ⟨c, signer, accepted, -, hin⟩ := h
  exact ProxyConfig.keepable_of_listed accepted hin

theorem Ruled.mono {P Q : Policy → Prop} {s : System MemoryStore} (h : s.Ruled P)
    (hPQ : ∀ p, P p → Q p) : s.Ruled Q :=
  ⟨fun n p hp => hPQ p (h.instances n p hp), fun l hl => hPQ _ (h.leaders l hl),
    fun w hw => hPQ _ (h.waiters w hw)⟩

section Runs

variable (fresh : s₀.Fresh) (fits : ∀ e ∈ events, e.Fits)

include fresh fits

/-- What is worked under at an instant has been in force by then. -/
theorem hadForce_after (hi : i ≤ events.length) {s : System MemoryStore}
    (hs : s₀.after? events i = some s) : s.Ruled (HadForce s₀ events i) := by
  refine move_induction fresh fits
    (P := fun i s => s.Ruled (HadForce s₀ events i)) after?_zero ?_
    (fun n e u v _ he hu hv _ hmove hP => ?_) (Nat.zero_le i) hi hs
  · refine ⟨fun site p hp => ⟨0, s₀, site, Nat.le_refl 0, after?_zero, hp⟩, ?_, ?_⟩
    · rw [fresh.leaders]
      exact fun l hl => absurd hl List.not_mem_nil
    · rw [fresh.waiters]
      exact fun w hw => absurd hw List.not_mem_nil
  · have hold := hP.mono fun p (hp : HadForce s₀ events n p) => hp.mono (Nat.le_succ n)
    have hnow : ∀ site p, v.policy? site = some p → HadForce s₀ events (n + 1) p :=
      fun site p hp => ⟨n + 1, v, site, Nat.le_refl _, hv, hp⟩
    cases e with
    | setPolicy site policy =>
        -- the new policy has no one working under it yet
        cases step_of_after he hu hv
        exact ⟨hnow, hold.leaders, hold.waiters⟩
    | _ => exact hmove.deed.ruled hold fun site p hset => by cases hset

/-- A leader works under the policy of an accepted configuration that has been
in force. -/
theorem leader_accepted (start : s₀.Ruled Accepted)
    (later : ∀ site p, Event.setPolicy site p ∈ events → Accepted p)
    (hi : i ≤ events.length) {s : System MemoryStore}
    (hs : s₀.after? events i = some s) {l : Leader} (hl : l ∈ s.leaders)
    {status : UInt16} (listed : status ∈ l.policy.definitive) :
    Listed s₀ events i status := by
  obtain ⟨c, signer, accepted, hpolicy⟩ :=
    (ruled_after fresh fits start later hi hs).leaders l hl
  have hforce := (hadForce_after fresh fits hi hs).leaders l hl
  rw [hpolicy] at hforce listed
  exact ⟨c, signer, accepted, hforce, listed⟩

-- ============================================================== the store

/-- The entry of a call has a status that is listed. -/
theorem Produced.listed (start : s₀.Ruled Accepted)
    (later : ∀ site p, Event.setPolicy site p ∈ events → Accepted p) {n : Nat}
    {l : Leader} {response : Response} {entry : Entry}
    (h : Produced s₀ events n l response entry) : Listed s₀ events n entry.status := by
  obtain ⟨c, u, v, he, hu, -, hleads, -, -, final, -, rfl, -⟩ := h
  have hn := Nat.le_of_lt (List.getElem?_eq_some_iff.mp he).1
  refine leader_accepted fresh fits start later hn hu
    (List.mem_of_find?_eq_some hleads) ?_
  unfold Policy.isDefinitive at final
  exact List.contains_iff_mem.mp final

/-- Whatever is stored, at every instant, has a status that is listed. -/
theorem listed_after (start : s₀.Ruled Accepted)
    (later : ∀ site p, Event.setPolicy site p ∈ events → Accepted p)
    (vacant : ∀ key, s₀.store.held? key = none) (hi : i ≤ events.length)
    {s : System MemoryStore} (hs : s₀.after? events i = some s) {key : EntryKey}
    {e : Entry} (he : s.store.held? key = some e) : Listed s₀ events i e.status := by
  refine move_induction fresh fits
    (P := fun i s => ∀ key e, s.store.held? key = some e → Listed s₀ events i e.status)
    after?_zero (fun key e he => ?_) (fun n a u v _ ha hu hv hinv _ hP key e he => ?_)
    (Nat.zero_le i) hi hs key e he
  · rw [vacant] at he
    cases he
  · have hold : u.store.held? key = some e → Listed s₀ events (n + 1) e.status :=
      fun h => (hP key e h).mono (Nat.le_succ n)
    rcases store_after fresh fits ha hu hv with
      hidle | ⟨-, hswept⟩ | ⟨site, caller, r, found, expiry, -, live, -, -, hwrite⟩
        | ⟨l, response, entry, hproduced⟩
    · rw [hidle] at he
      exact hold he
    · rw [hswept, hinv.1.held?_purge] at he
      exact hold (live?_eq_some.mp he).1
    · -- a refresh writes the status that it has found
      have hfound := (live?_eq_some.mp live).1
      rw [hwrite, held?_writeEntry ((hinv.1.fits hfound).withExpiry expiry)] at he
      split at he
      · cases he
        exact (hP _ _ hfound).mono (Nat.le_succ n)
      · exact hold he
    · rw [hproduced.held?_after fits hu hv] at he
      split at he
      · cases he
        exact (hproduced.listed fresh fits start later).mono (Nat.le_succ n)
      · exact hold he

/-- A reply that repeats a result has the status of an entry that was
stored. -/
theorem RepliesAt.stored {n : Nat} {caller : CallerId} {x : Replay}
    (h : RepliesAt s₀ events n caller (.ok x)) (replayed : x.replayed = true) :
    ∃ k u key e, k ≤ n ∧ s₀.after? events k = some u ∧ u.store.held? key = some e
      ∧ x.status = e.statusCode := by
  rcases h.cases_source fresh fits with ⟨entry, hentry, rfl⟩ | ⟨response, -, hfirst, -⟩
  · cases hentry with
    | looked e s site r entry event here attempts live =>
        exact ⟨n, s, _, entry, Nat.le_refl n, here, (live?_eq_some.mp live).1, rfl⟩
    | flown s u w k l result event here waits site flight before ended earlier live =>
        exact ⟨k, u, _, result.entry, Nat.le_of_lt before, earlier,
          (live?_eq_some.mp live).1, rfl⟩
  · rw [replayed] at hfirst
    cases hfirst

end Runs

-- ============================================================ the theorem

/-- The policy that a server starts under is that of its configuration. -/
theorem accepted_start {surroundings : Server.Surroundings} {now : UInt64} {c : ProxyConfig}
    {started : Server.Started} (accepted : Config.validate c = .ok c)
    (h : Server.start surroundings now c = .ok started) : Accepted started.policy := by
  obtain ⟨signer, -, -, hpolicy, -⟩ := Server.start_eq_ok h
  exact ⟨c, signer, accepted, hpolicy⟩

/-- So is the one that a reload puts in force. -/
theorem accepted_reload {environment : Option String} {c : ProxyConfig} {p : Policy}
    {auth : AuthPolicy} (accepted : Config.validate c = .ok c)
    (h : Server.reload environment c = some (p, auth)) : Accepted p := by
  rw [Server.reload_eq] at h
  obtain ⟨signer, -, hpair⟩ := Option.map_eq_some_iff.mp h
  exact ⟨c, signer, accepted, (Prod.mk.inj hpair).1.symm⟩

/-- Only listed statuses are kept. Let a server start from an accepted
configuration on a store without records, and let every configuration that it
is reloaded with be accepted. Then whatever happens, every record in its store
is that of an entry whose status is listed by a configuration that has been in
force by then, so it is between 100 and 499 and none of 401, 403 and 429; and
every reply that repeats a result has such a status. -/
theorem only_listed_kept {surroundings : Server.Surroundings} {now : UInt64} {c : ProxyConfig}
    {started : Server.Started} (accepted : Config.validate c = .ok c)
    (starts : Server.start surroundings now c = .ok started)
    (vacant : started.store.records = []) (wall : Int) {events : List Event}
    (fits : ∀ e ∈ events, e.Fits)
    (reloads : ∀ site p, .setPolicy site p ∈ events → ∃ environment d auth,
      Config.validate d = .ok d ∧ Server.reload environment d = some (p, auth))
    {i : Nat} (hi : i ≤ events.length) {s : System MemoryStore}
    (hs : (start wall started.store [started.policy]).after? events i = some s) :
    (∀ key r, (key, r) ∈ s.store.records → ∃ e, r.Holds e
      ∧ Listed (start wall started.store [started.policy]) events i e.status
      ∧ Keepable e.status.toNat)
    ∧ ∀ caller x, (caller, .ok x) ∈ s.replies → x.replayed = true → ∃ status,
      Listed (start wall started.store [started.policy]) events i status
      ∧ Keepable status.toNat ∧ x.status.code = status.toNat := by
  have fresh : (start wall started.store [started.policy]).Fresh :=
    fresh_start wall (wellStored_of_nil vacant) [started.policy]
  have hstart : (start wall started.store [started.policy]).Ruled Accepted := by
    refine ruled_start wall started.store fun p hp => ?_
    obtain rfl := List.mem_singleton.mp hp
    exact accepted_start accepted starts
  have hlater : ∀ site p, Event.setPolicy site p ∈ events → Accepted p := by
    intro site p hin
    obtain ⟨environment, d, auth, hd, hreload⟩ := reloads site p hin
    exact accepted_reload hd hreload
  have hvacant : ∀ key, started.store.held? key = none := by
    intro key
    unfold held? find?
    rw [vacant]
    rfl
  refine ⟨fun key r hr => ?_, fun caller x hx replayed => ?_⟩
  · have hstored := (invariants_after fresh fits hi hs).1
    have hfind := Association.lookup_of_mem hstored.distinct hr
    obtain ⟨e, he, hholds⟩ := hstored.held hfind
    have hlisted := listed_after fresh fits hstart hlater hvacant hi hs he
    exact ⟨e, hholds, hlisted, hlisted.keepable⟩
  · obtain ⟨n, hn, hreply⟩ := repliesAt_of_mem fresh fits hi hs hx
    obtain ⟨k, u, key, e, hkn, hu, he, hstatus⟩ := hreply.stored fresh fits replayed
    have hki := Nat.le_of_lt (Nat.lt_of_le_of_lt hkn hn)
    have hlisted := (listed_after fresh fits hstart hlater hvacant
      (Nat.le_trans hki hi) hu he).mono hki
    refine ⟨e.status, hlisted, hlisted.keepable, ?_⟩
    rw [hstatus, Entry.code_statusCode hlisted.keepable]

/-- A configuration that keeps one status only. -/
def Sample.strict : ProxyConfig := { idempotency := { definitiveStatuses := [200] } }

/-- A result is stored, the configuration is replaced by one that does not
list its status, and the request is repeated. -/
def narrowed : List Event :=
  Sample.stored ++ [.setPolicy 0 (Sample.policyOf Sample.strict), .arrive 0 1 Sample.order]

theorem fits_narrowed : ∀ e ∈ narrowed, e.Fits := by decide +kernel

/-- The result is repeated with a status that the configuration in force does
not list; the one before it did. -/
theorem only_listed_kept_narrowed : ∃ started s x status,
    Server.start (Server.Sample.machine (some Server.Sample.keyText)) 0 {} = .ok started
    ∧ (start 0 started.store [started.policy]).after? narrowed 5 = some s
    ∧ (1, .ok x) ∈ s.replies ∧ x.replayed = true
    ∧ Listed (start 0 started.store [started.policy]) narrowed 5 status
    ∧ x.status.code = status.toNat ∧ status.toNat = 201
    ∧ status ∉ Sample.strict.idempotency.definitiveStatuses := by
  have hstarts : (Server.start (Server.Sample.machine (some Server.Sample.keyText)) 0 {}).toOption.bind (fun started =>
      ((start 0 started.store [started.policy]).after? narrowed 5).map fun s =>
        (started.store.records.length, s.replies.map fun r =>
          (r.1, r.2.toOption.map fun x => (x.status.code, x.replayed))))
      = some (0, [(1, some (201, true))]) := by
    decide +kernel
  obtain ⟨started, hstarted, hrun⟩ := Option.bind_eq_some_iff.mp hstarts
  obtain ⟨s, hs, hview⟩ := Option.map_eq_some_iff.mp hrun
  obtain ⟨hvacant, hreplies⟩ := Prod.mk.inj hview
  obtain ⟨⟨who, reply⟩, hlist, hreply⟩ := List.map_eq_singleton_iff.mp hreplies
  obtain ⟨rfl, hok⟩ := Prod.mk.inj hreply
  obtain ⟨x, hx, hpair⟩ := Option.map_eq_some_iff.mp hok
  obtain ⟨hcode, hreplayed⟩ := Prod.mk.inj hpair
  have hstart := Config.eq_ok_of_toOption hstarted
  have hgiven : (1, .ok x) ∈ s.replies := by
    rw [hlist]
    cases reply with
    | error fault => cases hx
    | ok y =>
        cases hx
        exact List.mem_singleton_self _
  have hreloads : ∀ site p, .setPolicy site p ∈ narrowed → ∃ environment d auth,
      Config.validate d = .ok d ∧ Server.reload environment d = some (p, auth) := by
    intro site p hin
    simp only [narrowed, Sample.stored, List.mem_append, List.mem_cons, reduceCtorEq, Event.setPolicy.injEq,
      List.not_mem_nil, or_false, false_or] at hin
    obtain ⟨-, rfl⟩ := hin
    exact ⟨some Server.Sample.keyText, Sample.strict, .ofConfig {},
      Config.validate_eq_ok.mpr ⟨by decide +kernel, rfl⟩,
      Server.reload_eq _ _⟩
  obtain ⟨-, hrepeats⟩ := only_listed_kept
    (Config.validate_eq_ok.mpr ⟨by decide +kernel, rfl⟩) hstart
    (List.length_eq_zero_iff.mp hvacant) 0 fits_narrowed hreloads (by decide) hs
  obtain ⟨status, hlisted, -, hstatus⟩ := hrepeats 1 x hgiven hreplayed
  have hnumber : status.toNat = 201 := hstatus.symm.trans hcode
  refine ⟨started, s, x, status, hstart, hs, hgiven, hreplayed, hlisted, hstatus,
    hnumber, ?_⟩
  obtain rfl : status = 201 := UInt16.toNat_inj.mp hnumber
  decide

end Proxy.System

end OnceProxy
