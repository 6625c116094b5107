/-
How long a result is kept.

A configuration gives the time to live in seconds, an entry carries the
millisecond of its expiry. Between the two the seconds are multiplied,
written as a number of 64 bits, which wraps around, and added to the clock,
which does not: what counts is the remainder (`toNat_extension_ofConfig`).
As long as the product can be written, nothing is lost on the way
(`Writable`), an entry lives for the time that is configured, and whoever
repeats the request in that time is given the entry's result. Beyond that a
longer time to live may give a shorter life, or none, though the
configuration is accepted.
-/
import OnceProxy.Config.Validation
import OnceProxy.Proofs.Config.Watch
import OnceProxy.Proofs.Proxy.Agreement
import OnceProxy.Proofs.Proxy.LiveKeys

namespace OnceProxy

open Store MemoryStore

-- ============================================================== expiries

namespace ProxyConfig

/-- The configured time to live is a number of milliseconds that can be
written. -/
def Writable (c : ProxyConfig) : Prop :=
  1000 * c.idempotency.entryTtlSecs.toNat < 2 ^ 64

instance (c : ProxyConfig) : Decidable c.Writable := Nat.decLt _ _

/-- The expiry of what is kept at an instant, in exact arithmetic up to the
last instant. -/
def expiryAt (c : ProxyConfig) (now : UInt64) : Nat :=
  min (now.toNat + 1000 * c.idempotency.entryTtlSecs.toNat) maxUInt64

variable {c : ProxyConfig}

/-- What a configuration makes of the clock, writable or not. -/
theorem toNat_extension_ofConfig (c : ProxyConfig) (signer : Signer)
    (now : UInt64) :
    (extension now (Policy.ofConfig c signer).entryTtl).toNat
      = min (now.toNat + 1000 * c.idempotency.entryTtlSecs.toNat % 2 ^ 64)
        maxUInt64 := by
  have hmillis : (millis (Policy.ofConfig c signer).entryTtl).toNat
      = 1000 * c.idempotency.entryTtlSecs.toNat % 2 ^ 64 := by
    rw [millis, UInt64.toNat_ofNat', Nat.mul_comm]
    rfl
  rw [extension, toNat_addSaturating, hmillis]

theorem Writable.toNat_extension (h : c.Writable) (signer : Signer)
    (now : UInt64) :
    (extension now (Policy.ofConfig c signer).entryTtl).toNat
      = c.expiryAt now := by
  rw [toNat_extension_ofConfig, Nat.mod_eq_of_lt h, expiryAt]

/-- A configuration without problems has a time to live. -/
theorem entryTtlSecs_pos (accepted : c.problems = []) :
    0 < c.idempotency.entryTtlSecs.toNat := by
  have hcheck : Config.checkPositive "idempotency.entry_ttl_secs"
      c.idempotency.entryTtlSecs = [] := by
    simp only [problems, List.append_eq_nil_iff] at accepted
    simp only [accepted]
  exact Config.checkPositive_eq_nil.mp hcheck

/-- Its entries last. -/
theorem Writable.lasting (h : c.Writable) (accepted : c.problems = [])
    (signer : Signer) : Proxy.System.Lasting (.ofConfig c signer) := by
  have hpos := entryTtlSecs_pos accepted
  unfold Writable at h
  show 0 < c.idempotency.entryTtlSecs.toNat * 1000
    ∧ c.idempotency.entryTtlSecs.toNat * 1000 < 2 ^ 64
  omega

end ProxyConfig

/-- A refresh leaves the later of two expiries. -/
theorem Store.MemoryStore.WellStored.held?_extend {s : MemoryStore}
    (h : s.WellStored) {now : UInt64} {key : EntryKey} {e : Entry}
    (live : s.live? now key = some e) (duration : Nat) :
    ∃ f, (s.extend now key duration).held? key = some f
      ∧ e.sameResult f = true
      ∧ f.expiresAt.toNat
        = max e.expiresAt.toNat (extension now duration).toNat := by
  have hheld := (live?_eq_some.mp live).1
  unfold extend
  rw [live]
  dsimp only
  split
  · next hle =>
    refine ⟨e, hheld, e.sameResult_refl, ?_⟩
    exact (Nat.max_eq_left (UInt64.le_iff_toNat_le.mp hle)).symm
  · next hlater =>
    refine ⟨e.withExpiry (extension now duration), ?_,
      e.sameResult_withExpiry _, ?_⟩
    · rw [held?_writeEntry ((h.fits hheld).withExpiry _), if_pos rfl]
    · have hlt := UInt64.lt_iff_toNat_lt.mp (UInt64.not_le.mp hlater)
      exact (Nat.max_eq_right (Nat.le_of_lt hlt)).symm

namespace Proxy.System

-- =============================================================== repeats

/-- A request that finds its own result is given it at once, and nothing is
called. -/
theorem arrive_of_live {s : System MemoryStore} (h : s.store.WellStored)
    {site : Nat} {i : Instance} (there : s.instances[site]? = some i)
    {q : Incoming} {key : IdempotencyKey}
    (keyed : IdempotencyKey.ofRequest q.method q.key i.policy.requireKey
      = .ok (some key))
    {e : Entry}
    (live : s.live? (q.prepare key).fingerprint.entryKey = some e)
    (own : e.answers (q.prepare key).fingerprint = true) (caller : CallerId) :
    ∃ t, s.step MemoryStore.backend (.arrive site caller q) = some t
      ∧ t.calls = s.calls
      ∧ t.replies = s.replies ++ [(caller, .ok (.ofEntry e true))] := by
  have honce := attempt_found (found_of_live h live) caller site i.policy 0
  rw [recalled_of_own (of_decide_eq_true own)] at honce
  exact ⟨_, step_arrive there (Incoming.hasKey_of_ofRequest keyed) caller,
    honce.calls, honce.replies⟩

/-- A request that this instance takes for a repetition of a prepared
one. -/
def Repeats (q : Incoming) (i : Instance) (r : Prepared) : Prop :=
  ∃ key, IdempotencyKey.ofRequest q.method q.key i.policy.requireKey
      = .ok (some key)
    ∧ (q.prepare key).fingerprint = r.fingerprint

section Runs

variable {s₀ : System MemoryStore} {events : List Event}

/-- The entry that a call has produced is the result of the leader's
request. -/
theorem Produced.answers {n : Nat} {l : Leader} {response : Http.Response}
    {entry : Entry} (h : Produced s₀ events n l response entry) :
    entry.answers l.request.fingerprint = true := by
  obtain ⟨c, u, v, -, -, -, -, -, -, -, -, hentry, -⟩ := h
  rw [hentry]
  exact decide_eq_true rfl

/-- Entries of one result are results of the same requests. -/
theorem answers_of_sameResult {e f : Entry} (h : e.sameResult f = true)
    (fp : Fingerprint) : f.answers fp = e.answers fp := by
  rw [Entry.sameResult_iff.mp h]
  rfl

variable (fresh : s₀.Fresh) (fits : ∀ e ∈ events, e.Fits)

include fresh fits

/-- Until its expiry the entry that a call has produced is what a repetition
of the request is given. -/
theorem Produced.replayed (steady : Steady s₀ events) {n : Nat} {l : Leader}
    {response : Http.Response} {entry : Entry}
    (h : Produced s₀ events n l response entry) (hl : Lasting l.policy)
    {m : Nat} (hnm : n < m) (hm : m ≤ events.length)
    {t : System MemoryStore} (ht : s₀.after? events m = some t)
    (early : t.now < entry.expiresAt) {site : Nat} {i : Instance}
    (there : t.instances[site]? = some i) {q : Incoming}
    (repeats : Repeats q i l.request) (caller : CallerId) :
    ∃ t', t.step MemoryStore.backend (.arrive site caller q) = some t'
      ∧ t'.calls = t.calls
      ∧ t'.replies = t.replies ++ [(caller, .ok (.ofEntry entry true))] := by
  obtain ⟨v, hv⟩ := exists_after hnm ht
  -- it was live when it was stored, since some instant comes before its expiry
  have hclock := steady (n + 1) m v t hnm hm hv ht
  have hlive : v.live? l.guard.key = some entry := by
    refine h.live fresh fits hl hv ?_
    have hle := UInt64.le_iff_toNat_le.mp hclock
    have hlt := UInt64.lt_iff_toNat_lt.mp early
    have hmax := entry.expiresAt.toNat_lt
    omega
  have hguard : l.guard.key = l.request.fingerprint.entryKey := by
    obtain ⟨c, u, v', -, hu, -, hleads, -⟩ := h
    have hn := Nat.le_trans (Nat.le_of_lt hnm) hm
    exact (invariants_after fresh fits hn hu).2.keyed l
      (List.mem_of_find?_eq_some hleads)
  obtain ⟨key, keyed, hsame⟩ := repeats
  rcases live_or_expired fresh fits steady hnm hm hv ht hlive with
    ⟨f, hf, hresult, -⟩ | hexpired
  · rw [hguard, ← hsame] at hf
    have hown : f.answers (q.prepare key).fingerprint = true := by
      rw [answers_of_sameResult hresult, hsame]
      exact h.answers
    obtain ⟨t', hstep, hcalls, hreplies⟩ := arrive_of_live
      (invariants_after fresh fits hm ht).1 there keyed hf hown caller
    refine ⟨t', hstep, hcalls, ?_⟩
    rw [hreplies, ofEntry_of_sameResult hresult]
  · exact absurd early (UInt64.not_lt.mpr hexpired)

end Runs

-- ============================================================ the theorem

/-- Let a configuration be accepted and its time to live be writable, and
any number of instances share a store. An entry that a call produces under
the configuration expires when exact arithmetic says, up to the clock's
last reading; it is live at once unless that is the clock's reading, and
until its expiry every repetition of the request is given it without a
call. A refresh leaves the later of the old expiry and the one counted from
now. And a longer time to live never gives an earlier expiry. -/
theorem results_last (wall : Int) (store : MemoryStore)
    (stored : store.WellStored) (policies : List Policy)
    (events : List Event) (fits : ∀ e ∈ events, e.Fits)
    (steady : Steady (start wall store policies) events) {c : ProxyConfig}
    (accepted : c.problems = []) (writable : c.Writable) (signer : Signer) :
    (∀ n l response entry u v,
      Produced (start wall store policies) events n l response entry →
      l.policy = .ofConfig c signer →
      (start wall store policies).after? events n = some u →
      (start wall store policies).after? events (n + 1) = some v →
      entry.expiresAt.toNat = c.expiryAt u.now
      ∧ (u.now.toNat < maxUInt64 → v.live? l.guard.key = some entry)
      ∧ ∀ m t site i q caller, n < m → m ≤ events.length →
          (start wall store policies).after? events m = some t →
          t.now < entry.expiresAt → t.instances[site]? = some i →
          Repeats q i l.request →
          ∃ t', t.step MemoryStore.backend (.arrive site caller q) = some t'
            ∧ t'.calls = t.calls
            ∧ t'.replies
              = t.replies ++ [(caller, .ok (.ofEntry entry true))])
    ∧ (∀ (s : MemoryStore) now key e metrics, s.WellStored →
      s.live? now key = some e →
      ∃ t f, (Cache.refresh key (Policy.ofConfig c signer).entryTtl).run
            MemoryStore.backend now (s, metrics)
          = (.ok (some .swapped), (t, metrics))
        ∧ t.held? key = some f ∧ e.sameResult f = true
        ∧ f.expiresAt.toNat = max e.expiresAt.toNat (c.expiryAt now))
    ∧ ∀ (d : ProxyConfig) (r : Prepared) response now, d.Writable →
      c.idempotency.entryTtlSecs ≤ d.idempotency.entryTtlSecs →
      (r.entryFor (.ofConfig c signer) response now).expiresAt
        ≤ (r.entryFor (.ofConfig d signer) response now).expiresAt := by
  have fresh := fresh_start wall stored policies
  have hlasting := writable.lasting accepted signer
  refine ⟨fun n l response entry u v h hpolicy hu hv => ?_,
    fun s now key e metrics hs live => ?_,
    fun d r response now hd hle => ?_⟩
  · have hl : Lasting l.policy := hpolicy ▸ hlasting
    refine ⟨?_, fun hnow => ?_, fun m t site i q caller hnm hm ht early there
      repeats => h.replayed fresh fits steady hl hnm hm ht early there repeats
        caller⟩
    · obtain ⟨c', u', v', -, hu', -, -, -, -, -, -, hentry, -⟩ := h
      rw [hu] at hu'
      cases hu'
      rw [hentry, hpolicy]
      exact writable.toNat_extension signer u.now
    · refine h.live fresh fits hl hv ?_
      obtain ⟨c', u', v', he, hu', hv', -⟩ := id h
      rw [hu] at hu'
      cases hu'
      -- the answer takes no time
      have hwall := (move_of_after fresh fits he hu hv).wall
      rw [now_congr (hwall.trans (Int.add_zero _))]
      have hmax : maxUInt64 = 2 ^ 64 - 1 := rfl
      omega
  · obtain ⟨f, hf, hsame, hexpiry⟩ :=
      hs.held?_extend live (Policy.ofConfig c signer).entryTtl
    refine ⟨_, f, Cache.run_refresh hs now key _ metrics |>.trans ?_, hf,
      hsame, ?_⟩
    · rw [live]
      rfl
    · rw [hexpiry, writable.toNat_extension]
  · rw [UInt64.le_iff_toNat_le] at hle ⊢
    show (extension now (Policy.ofConfig c signer).entryTtl).toNat
      ≤ (extension now (Policy.ofConfig d signer).entryTtl).toNat
    rw [writable.toNat_extension, hd.toNat_extension]
    unfold ProxyConfig.expiryAt
    omega

/-- The policy of a configuration, under a key like any other. -/
def Sample.policyOf (c : ProxyConfig) : Policy :=
  .ofConfig c Sample.policy.signer

/-- A result is a minute old. -/
def kept : List Event := Sample.stored ++ [.advance 60000]

theorem fits_kept : ∀ e ∈ kept, e.Fits := by decide +kernel

/-- Whoever repeats the request is given it, under the configuration that
asks for nothing special. -/
theorem results_last_kept :
    ∃ t t' entry, (start 0 .empty [Sample.policyOf {}]).after? kept 4 = some t
      ∧ t.step MemoryStore.backend (.arrive 0 1 Sample.order) = some t'
      ∧ t'.calls = t.calls
      ∧ t'.replies = t.replies ++ [(1, .ok (.ofEntry entry true))] := by
  have fresh := fresh_start 0 wellStored_empty [Sample.policyOf {}]
  have steady : Steady (start 0 .empty [Sample.policyOf {}]) kept :=
    steady_of_wall_lt fresh fits_kept (by decide)
  have htimes : (((start 0 .empty [Sample.policyOf {}]).after? kept 2).bind
      fun u => (u.leaderOf 0).map fun l => (u.now, u.store.lastVersion,
        l.request.fingerprint)) = some (0, 0,
        (Sample.order.prepare Sample.orderKey).fingerprint) := by
    decide +kernel
  obtain ⟨u, hu, hleader⟩ := Option.bind_eq_some_iff.mp htimes
  obtain ⟨l, hl, hfacts⟩ := Option.map_eq_some_iff.mp hleader
  obtain ⟨hnow, hversion, hfingerprint⟩ := by simpa using hfacts
  have hend : ((start 0 .empty [Sample.policyOf {}]).after? kept 3).map
      (·.store.lastVersion) = some 1 := by
    decide +kernel
  obtain ⟨v, hv, hversion'⟩ := Option.map_eq_some_iff.mp hend
  have hlast : ((start 0 .empty [Sample.policyOf {}]).after? kept 4).bind
      (fun t => t.instances[0]?.map fun i => (t.now, i.policy.requireKey))
        = some (60000, false) := by
    decide +kernel
  obtain ⟨t, ht, hinstance⟩ := Option.bind_eq_some_iff.mp hlast
  obtain ⟨i, hi, hpair⟩ := Option.map_eq_some_iff.mp hinstance
  obtain ⟨hclock, hrequire⟩ := by simpa using hpair
  -- the answer has written an entry, so it has produced one
  rcases store_after fresh fits_kept rfl hu hv with
    hidle | ⟨hsweep, -⟩ | ⟨_, _, _, _, _, hattempt, -⟩
      | ⟨l', response, entry, hproduced⟩
  · rw [hidle, hversion] at hversion'
    exact absurd hversion' (by decide)
  · cases hsweep
  · cases hattempt
  · obtain ⟨c, u', -, he, hu', -, hl', -⟩ := id hproduced
    have hcall : 0 = c.call := (Event.answer.inj (Option.some.inj he)).1
    rw [hu] at hu'
    cases hu'
    rw [← hcall, hl] at hl'
    cases hl'
    have hpolicy : l.policy = Sample.policyOf {} := by
      refine (ruled_after fresh fits_kept (P := (· = Sample.policyOf {}))
        (ruled_start 0 .empty fun p hp => List.mem_singleton.mp hp)
        (fun site p hp => ?_) (by decide) hu).leaders l
          (List.mem_of_find?_eq_some hl)
      simp [kept, Sample.stored] at hp
    obtain ⟨hexpiry, -, hreplay⟩ := (results_last 0 .empty wellStored_empty
      [Sample.policyOf {}] kept fits_kept steady (c := {})
      (by decide +kernel) (by decide)
      Sample.policy.signer).1 2 l response entry u v hproduced
        hpolicy hu hv
    have early : t.now < entry.expiresAt := by
      rw [UInt64.lt_iff_toNat_lt, hexpiry, hclock, hnow]
      decide
    obtain ⟨t', hstep, hcalls, hreplies⟩ := hreplay 4 t 0 i Sample.order 1
      (by decide) (by decide) ht early hi
      ⟨Sample.orderKey, by rw [hrequire]; decide +kernel, hfingerprint.symm⟩
    exact ⟨t, t', entry, ht, hstep, hcalls, hreplies⟩

/-- A configuration that asks for a longer life than can be written: the
remainder of its milliseconds is zero. -/
def Sample.endless : ProxyConfig :=
  { idempotency := { entryTtlSecs := 2305843009213693952 } }

/-- A request that is sent twice at one instant. -/
def twice : List Event :=
  Sample.stored ++ [.arrive 0 1 Sample.order, .lead 0 1]

/-- Such a configuration is accepted, and its entries expire as they are
stored; a refresh moves no expiry, and the second request calls the origin
once more. -/
theorem results_may_not_last :
    Sample.endless.problems = []
    ∧ (∀ (r : Prepared) response (now : UInt64),
      (r.entryFor (Sample.policyOf Sample.endless) response now).expiresAt
        = now)
    ∧ (∀ (s : MemoryStore) now key,
      s.extend now key (Sample.policyOf Sample.endless).entryTtl = s)
    ∧ Sample.endless.expiryAt 1700000000000 = maxUInt64
    ∧ ((start 1700000000000 .empty [Sample.policyOf Sample.endless]).after?
        twice 5).map (·.calls.length) = some 2 := by
  have hnothing : ∀ now, extension now
      (Sample.policyOf Sample.endless).entryTtl = now := by
    intro now
    have hsecs : Sample.endless.idempotency.entryTtlSecs.toNat = 2 ^ 61 := rfl
    have hmax : maxUInt64 = 2 ^ 64 - 1 := rfl
    have hlt := now.toNat_lt
    refine UInt64.toNat_inj.mp ?_
    unfold Sample.policyOf
    rw [ProxyConfig.toNat_extension_ofConfig, hsecs, hmax]
    omega
  refine ⟨by decide +kernel, fun r response now => hnothing now,
    fun s now key => ?_, by decide, by decide +kernel⟩
  rcases s.extend_cases now key (Sample.policyOf Sample.endless).entryTtl with
    hidle | ⟨e, expiry, live, later, -⟩
  · exact hidle
  · have hnow := (live?_eq_some.mp live).2
    unfold extend
    rw [live]
    dsimp only
    rw [hnothing, if_pos (UInt64.le_of_lt hnow)]

end Proxy.System

end OnceProxy
