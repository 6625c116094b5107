/-
The counters agree with one another and with what they count.

Each step is looked at for what it counts (`Counts`): a look-up counts how it
ended, and on a miss the role in which the request joins a flight as well; the
end of a call counts one; nothing else counts anything but errors of the store.
`step_counts` reads that off the steps. Over a run the sums of what was counted
are set against four histories (`Books`): the replies that look-ups gave, the
flights that have begun, and the calls that have ended. Each step keeps the
balance, whatever the store answers and wherever it fails.
-/
import OnceProxy.Proofs.Flight.Tally
import OnceProxy.Proofs.Metrics
import OnceProxy.Proofs.Proxy.Conclusions
import OnceProxy.Store.Scripted

namespace OnceProxy.Proxy

open Origin Store

namespace System

variable {σ : Type} {B : Backend σ} {s t u : System σ} {e : Event} {cs : List Counter}

-- =========================================================== what is counted

/-- What a look-up counts by the reply that it has. -/
def lookupCounters : Option (Except ProxyError Replay) → List Counter
  | none => [.lookups .miss]
  | some (.ok _) => [.lookups .hit]
  | some (.error .conflict) => [.lookups .conflict]
  | some (.error _) => []

/-- The result of a call by the reply of the origin. -/
def countedResult : Reply → CallResult
  | .error _ => .error
  | .ok response => .status response.status.code

/-- How many flights have begun at an instance. -/
def begun (s : System σ) (site : Nat) : Nat := ((s.table? site).map (·.nextId)).getD 0

/-- What an attempt counts. -/
inductive Looked (s t : System σ) : List Counter → Prop where
  /-- The look-up has a reply. -/
  | answered (caller : CallerId) (x : Except ProxyError Replay)
      (marked : ∀ r, x = .ok r → r.replayed = true)
      (replies : t.replies = s.replies ++ [(caller, x)])
      (flights : ∀ n, t.begun n = s.begun n) :
      Looked s t (lookupCounters (some x))
  /-- It has none, and the request joins a flight in progress. -/
  | followed (replies : t.replies = s.replies) (flights : ∀ n, t.begun n = s.begun n) :
      Looked s t [.lookups .miss, .joins .follower]
  /-- It has none, and a flight begins. -/
  | led (site : Nat) (there : (s.table? site).isSome = true)
      (replies : t.replies = s.replies)
      (flights : ∀ n, t.begun n = s.begun n + if n = site then 1 else 0) :
      Looked s t [.lookups .miss, .joins .leader]

/-- What an event counts, beside errors of the store. -/
inductive Counts (s : System σ) (e : Event) (t : System σ) : List Counter → Prop where
  | looked (cs : List Counter) (attempts : (s.attempt? e).isSome = true)
      (found : Looked s t cs) : Counts s e t cs
  | concluded (call : CallId) (result : CallResult) (rest : s.attempt? e = none)
      (ends : e.concluded? = some call) (flights : ∀ n, t.begun n = s.begun n) :
      Counts s e t [.originCalls result]
  | nothing (rest : s.attempt? e = none) (still : e.concluded? = none)
      (flights : ∀ n, t.begun n = s.begun n) : Counts s e t []

-- ============================================================ conversations

theorem adds_converse {α : Type} {m : Metrics} (h : m.Adds cs s.metrics) (d : Dialogue α) :
    m.Adds cs (s.converse B d).2.metrics :=
  Dialogue.adds_run B s.now d s.store h

theorem adds_lookup (r : Prepared) (policy : Policy) :
    s.metrics.Adds (lookupCounters (s.lookup B r policy).1) (s.lookup B r policy).2.metrics := by
  have hget := adds_converse (B := B) (Metrics.Adds.refl s.metrics)
    (Cache.get r.fingerprint.entryKey)
  unfold lookup
  split
  · next e v hlook =>
    rw [hlook] at hget
    exact hget
  · next v hlook =>
    rw [hlook] at hget
    exact hget.bump _
  · next entry v hlook =>
    rw [hlook] at hget
    split
    · cases policy.refreshOnReplay with
      | false => exact hget.bump _
      | true => exact adds_converse (s := v.bump _) (hget.bump _) _
    · exact hget.bump _

/-- What a look-up replies with is marked as a repetition. -/
theorem replayed_of_lookup {r : Prepared} {policy : Policy} {x : Replay}
    (h : (s.lookup B r policy).1 = some (.ok x)) : x.replayed = true := by
  unfold lookup at h
  split at h
  · cases h
  · cases h
  · split at h
    · cases h
      rfl
    · cases h

theorem adds_resolve (l : Leader) (r : Reply) :
    s.metrics.Adds [.originCalls (countedResult r)] (s.resolve B l r).2.metrics := by
  unfold resolve
  cases r with
  | error fault => exact (Metrics.Adds.refl s.metrics).bump _
  | ok response =>
      have hbump := (Metrics.Adds.refl s.metrics).bump
        (.originCalls (.status response.status.code))
      have hput := adds_converse (B := B)
        (s := s.bump (.originCalls (.status response.status.code))) hbump
        (Cache.putIfAbsent l.guard.key (l.request.entryFor l.policy response s.now))
      dsimp only
      split
      · exact hbump
      · split
        all_goals
          next heq =>
          rw [show (s.bump (.originCalls
            (.status response.status.code))).now = s.now from rfl] at heq
          rw [heq] at hput
          exact hput

-- ================================================================= flights

theorem begun_finishFlight (s : System σ) (l : Leader) (how : FlightEnd Outcome) (n : Nat) :
    (s.finishFlight l how).begun n = s.begun n := by
  unfold begun
  rw [table?_finishFlight]
  split
  · rw [Option.map_map]
    rfl
  · rfl

/-- Joining begins a flight for whoever leads. -/
theorem begun_join {site : Nat} {i : Instance} (hi : s.instances[site]? = some i)
    (key : EntryKey) (n : Nat) :
    (s.updateFlights site fun _ => (i.flights.join key).2.2).begun n
      = s.begun n + if n = site ∧ (i.flights.join key).1 = .leader then 1 else 0 := by
  unfold begun
  rw [table?_updateFlights]
  by_cases hn : n = site
  · subst hn
    rw [if_pos rfl, table?_of_instance hi]
    simp [FlightTable.nextId_join]
  · simp [hn]

-- ================================================================ attempts

/-- What an attempt counts is what it does. -/
theorem attempt_counts {site : Nat} {i : Instance} (hi : s.instances[site]? = some i)
    (caller : CallerId) (r : Prepared) (policy : Policy) (joined : Nat) :
    ∃ cs, s.metrics.Adds cs (s.attempt B caller site r policy joined).metrics
      ∧ Looked s (s.attempt B caller site r policy joined) cs := by
  have hadds := adds_lookup (B := B) (s := s) r policy
  have hbeside := beside_lookup (B := B) (s := s) r policy
  unfold attempt
  cases hlook : s.lookup B r policy with
  | mk found v =>
      rw [hlook] at hadds hbeside
      obtain ⟨st, m, rfl⟩ : Beside s v := hbeside
      cases found with
      | some x =>
          refine ⟨_, hadds, .answered caller x (fun y hy => ?_) rfl fun _ => rfl⟩
          have hfound : (s.lookup B r policy).1 = some (.ok y) := by
            rw [hlook, hy]
          exact replayed_of_lookup hfound
      | none =>
          simp only [hi]
          have hjoin := begun_join (s := { s with store := st, metrics := m }) hi
            r.fingerprint.entryKey
          cases hrole : (i.flights.join r.fingerprint.entryKey).1 with
          | follower =>
              refine ⟨_, hadds.bump (.joins .follower), .followed rfl fun n => ?_⟩
              have hn := hjoin n
              rw [hrole, if_neg (fun h => by cases h.2)] at hn
              exact hn
          | leader =>
              refine ⟨_, hadds.bump (.joins .leader), .led site ?_ rfl fun n => ?_⟩
              · rw [table?_of_instance hi]
                rfl
              · have hn := hjoin n
                simp only [hrole, and_true] at hn
                exact hn

/-- Whether the caller still waits for something else does not matter to it. -/
theorem Looked.of_dropWaiter {caller : CallerId} (h : Looked (s.dropWaiter caller) t cs) :
    Looked s t cs := by
  cases h with
  | answered c x marked replies flights => exact .answered c x marked replies flights
  | followed replies flights => exact .followed replies flights
  | led site there replies flights => exact .led site there replies flights

-- ================================================================== steps

theorem attempt?_refused {site : Nat} {i : Instance} (there : s.instances[site]? = some i)
    {r : Incoming} (bad : ∀ key, IdempotencyKey.ofRequest r.method r.key i.policy.requireKey
      ≠ .ok (some key)) (caller : CallerId) : s.attempt? (.arrive site caller r) = none := by
  rw [Option.eq_none_iff_forall_ne_some]
  intro ⟨n, c, q⟩ h
  rcases attempt?_spec h with ⟨q', j, key, hevent, hj, hkey, -⟩ | ⟨w, hevent, -⟩
  · cases hevent
    rw [there] at hj
    cases hj
    exact bad key hkey
  · cases hevent

theorem attempt?_settled {w : Waiter}
    (waits : s.waiters.find? (·.caller = w.caller) = some w)
    (isOver : s.outcome? w.site w.flight ≠ some .aborted
      ∨ maxLeadershipAttempts ≤ w.joined) : s.attempt? (.wake w.caller) = none := by
  rw [Option.eq_none_iff_forall_ne_some]
  intro ⟨n, c, q⟩ h
  rcases attempt?_spec h with ⟨q', j, key, hevent, -⟩ | ⟨v, hevent, hv, hover, hmore, -⟩
  · cases hevent
  · injection hevent with hcaller
    rw [← hcaller, waits] at hv
    cases hv
    rcases isOver with hnot | hmany
    · exact hnot hover
    · exact Nat.not_lt.mpr hmany hmore

/-- What a step adds to the counters is what it counts. -/
theorem step_counts (ht : s.step B e = some t) :
    ∃ cs, s.metrics.Adds cs t.metrics ∧ Counts s e t cs := by
  cases step_deed ht with
  | refused site caller r i fault there bad =>
      refine ⟨[], .refl _, .nothing (attempt?_refused there (fun key => ?_) caller) rfl
        fun _ => rfl⟩
      rw [bad]
      intro h
      cases h
  | passed site caller r i there keyless =>
      refine ⟨[], .refl _, .nothing (attempt?_refused there (fun key => ?_) caller) rfl
        fun _ => rfl⟩
      rw [keyless]
      intro h
      cases h
  | attempted site caller r i key t there keyed attempt =>
      obtain ⟨cs, hadds, hlooked⟩ :=
        attempt_counts (B := B) there caller (r.prepare key) i.policy 0
      have hsame : t = s.attempt B caller site (r.prepare key) i.policy 0 := by
        simp only [step, arrive, there, keyed, Option.bind_eq_bind, Option.bind_some] at ht
        exact (Option.some.inj ht).symm
      rw [hsame]
      refine ⟨cs, hadds, .looked cs ?_ hlooked⟩
      rw [attempt?_arrive there keyed]
      rfl
  | called l st m leads idle look =>
      have hadds := adds_converse (B := B) (Metrics.Adds.refl s.metrics) (Cache.get l.guard.key)
      rw [look] at hadds
      exact ⟨[], hadds, .nothing rfl rfl fun _ => rfl⟩
  | ended e l how st m close =>
      have hflights := begun_finishFlight ({ s with store := st, metrics := m }) l how
      have hget := adds_converse (B := B) (Metrics.Adds.refl s.metrics) (Cache.get l.guard.key)
      cases close with
      | failed l fault st m leads idle look =>
          rw [look] at hget
          exact ⟨[], hget, .nothing rfl rfl hflights⟩
      | found l entry st m leads idle look =>
          rw [look] at hget
          exact ⟨[], hget, .nothing rfl rfl hflights⟩
      | answered l c r outcome st m leads waits inTime result =>
          have hadds := adds_resolve (B := B) (s := s) l r
          rw [result] at hadds
          exact ⟨_, hadds, .concluded c.call _ rfl rfl hflights⟩
      | late l c leads waits overdue =>
          exact ⟨_, (Metrics.Adds.refl _).bump _, .concluded c.call _ rfl rfl hflights⟩
      | died l leads => exact ⟨[], .refl _, .nothing rfl rfl hflights⟩
  | passerAnswered m p answer waits keyless inTime =>
      have hcounted : m = s.metrics.bump (.originCalls (countedResult answer)) := by
        simp only [step, System.answer, keyless, waits, Option.bind_eq_bind,
          Option.bind_some, if_pos inTime] at ht
        cases answer <;> exact (congrArg System.metrics (Option.some.inj ht)).symm
      have hadds := (Metrics.Adds.refl s.metrics).bump (.originCalls (countedResult answer))
      rw [← hcounted] at hadds
      exact ⟨_, hadds, .concluded p.waiting.call _ rfl rfl fun _ => rfl⟩
  | passerLate m p waits keyless overdue =>
      have hcounted : m = s.metrics.bump (.originCalls .timeout) := by
        simp only [step, System.timeout, keyless, waits, Option.bind_eq_bind,
          Option.bind_some, if_pos overdue] at ht
        exact (congrArg System.metrics (Option.some.inj ht)).symm
      have hadds := (Metrics.Adds.refl s.metrics).bump (.originCalls .timeout)
      rw [← hcounted] at hadds
      exact ⟨_, hadds, .concluded p.waiting.call _ rfl rfl fun _ => rfl⟩
  | settled w outcome waits isOver =>
      refine ⟨[], .refl _, .nothing (attempt?_settled waits (.inl ?_)) rfl fun _ => rfl⟩
      rw [isOver]
      intro h
      cases h
  | retried w t waits isOver more attempt =>
      obtain ⟨table, htable, hover⟩ := Option.bind_eq_some_iff.mp isOver
      obtain ⟨i, hi, rfl⟩ := Option.map_eq_some_iff.mp htable
      obtain ⟨cs, hadds, hlooked⟩ := attempt_counts (B := B) (s := s.dropWaiter w.caller) hi
        w.caller w.request w.policy w.joined
      have hsame : t = (s.dropWaiter w.caller).attempt B w.caller w.site w.request w.policy
          w.joined := by
        simp only [step, wake, waits, hi, hover, Option.bind_eq_bind, Option.bind_some,
          if_pos more] at ht
        exact (Option.some.inj ht).symm
      rw [hsame]
      refine ⟨cs, hadds, .looked cs ?_ hlooked.of_dropWaiter⟩
      rw [attempt?_wake waits isOver more]
      rfl
  | exhausted w waits isOver noMore =>
      exact ⟨[], .refl _, .nothing (attempt?_settled waits (.inr noMore)) rfl fun _ => rfl⟩
  | left | elapsed | advanced => exact ⟨[], .refl _, .nothing rfl rfl fun _ => rfl⟩
  | policySet site policy =>
      refine ⟨[], .refl _, .nothing rfl rfl fun n => ?_⟩
      unfold begun
      rw [table?_setPolicy]
  | swept m =>
      have hcounted : s.metrics.setEntries (B.size (B.sweep s.now s.store)) = m :=
        congrArg System.metrics (Option.some.inj ht)
      have hadds := (Metrics.Adds.refl s.metrics).setEntries (B.size (B.sweep s.now s.store))
      rw [hcounted] at hadds
      exact ⟨[], hadds, .nothing rfl rfl fun _ => rfl⟩

-- ================================================================= books

/-- The replies that look-ups give in a step. -/
def lookupReplies (s : System σ) (e : Event) (t : System σ) :
    List (Except ProxyError Replay) :=
  if (s.attempt? e).isSome then (t.replies.drop s.replies.length).map (·.2) else []

/-- Whether a reply is a repetition. -/
def isReplay : Except ProxyError Replay → Bool
  | .ok r => r.replayed
  | .error _ => false

/-- Whether a reply is a conflict. -/
def isConflict : Except ProxyError Replay → Bool
  | .error .conflict => true
  | _ => false

/-- Whether a counter is one of the calls to the origin, whatever their
result. -/
def countsCalls : Counter → Bool
  | .originCalls _ => true
  | _ => false

/-- What a step counts, and what it does, in numbers. -/
structure Balanced (s : System σ) (e : Event) (t : System σ) (cs : List Counter) : Prop where
  joins : cs.countP (· = .lookups .miss)
    = cs.countP (· = .joins .leader) + cs.countP (· = .joins .follower)
  begun : (∀ n, (s.table? n).isSome = true → n = 0) →
    t.begun 0 = s.begun 0 + cs.countP (· = .joins .leader)
  hits : (lookupReplies s e t).countP isReplay = cs.countP (· = .lookups .hit)
  conflicts : (lookupReplies s e t).countP isConflict = cs.countP (· = .lookups .conflict)
  calls : e.concluded?.toList.length = cs.countP countsCalls

/-- Without a reply of a look-up there is no hit and no conflict to count. -/
theorem balanced_of_no_reply (silent : lookupReplies s e t = [])
    (hits : cs.countP (· = .lookups .hit) = 0)
    (conflicts : cs.countP (· = .lookups .conflict) = 0)
    (joins : cs.countP (· = .lookups .miss)
      = cs.countP (· = .joins .leader) + cs.countP (· = .joins .follower))
    (begun : (∀ n, (s.table? n).isSome = true → n = 0) →
      t.begun 0 = s.begun 0 + cs.countP (· = .joins .leader))
    (calls : e.concluded?.toList.length = cs.countP countsCalls) : Balanced s e t cs := by
  refine ⟨joins, begun, ?_, ?_, calls⟩
  · rw [silent, hits]
    rfl
  · rw [silent, conflicts]
    rfl

/-- A look-up that fails for another reason than a conflict counts nothing. -/
theorem lookupCounters_error {fault : ProxyError} (h : fault ≠ .conflict) :
    lookupCounters (some (.error fault)) = [] ∧ isConflict (.error fault) = false := by
  cases fault with
  | conflict => exact absurd rfl h
  | _ => exact ⟨rfl, rfl⟩

/-- An attempt ends no call. -/
theorem concluded?_of_attempt (attempts : (s.attempt? e).isSome = true) :
    e.concluded? = none := by
  cases e with
  | answer | timeout => cases attempts
  | _ => rfl

theorem Looked.balanced (h : Looked s t cs) (attempts : (s.attempt? e).isSome = true) :
    Balanced s e t cs := by
  have hstill : e.concluded?.toList.length = 0 := by
    rw [concluded?_of_attempt attempts]
    rfl
  have hreplies : lookupReplies s e t = (t.replies.drop s.replies.length).map (·.2) :=
    if_pos attempts
  cases h with
  | answered caller x marked replies flights =>
      rw [replies, List.drop_left, List.map_singleton] at hreplies
      cases x with
      | ok r =>
          have hmarked : isReplay (.ok r) = true := marked r rfl
          refine ⟨rfl, fun _ => flights 0, ?_, ?_, hstill⟩
          · rw [hreplies, List.countP_singleton, if_pos hmarked]
            rfl
          · rw [hreplies]
            rfl
      | error fault =>
          by_cases hconflict : fault = .conflict
          · subst hconflict
            refine ⟨rfl, fun _ => flights 0, ?_, ?_, hstill⟩
            · rw [hreplies]
              rfl
            · rw [hreplies]
              rfl
          · obtain ⟨hcounts, hother⟩ := lookupCounters_error hconflict
            rw [hcounts]
            refine ⟨rfl, fun _ => flights 0, ?_, ?_, hstill⟩
            · rw [hreplies]
              rfl
            · rw [hreplies, List.countP_singleton, hother]
              rfl
  | followed replies flights =>
      rw [replies, List.drop_length] at hreplies
      exact balanced_of_no_reply hreplies rfl rfl rfl (fun _ => flights 0) hstill
  | led site there replies flights =>
      rw [replies, List.drop_length] at hreplies
      refine balanced_of_no_reply hreplies rfl rfl rfl (fun alone => ?_) hstill
      rw [flights 0, if_pos (alone site there).symm]
      rfl

theorem Counts.balanced (h : Counts s e t cs) : Balanced s e t cs := by
  have hsilent : s.attempt? e = none → lookupReplies s e t = [] := by
    intro rest
    exact if_neg (by simp [rest])
  cases h with
  | looked cs attempts found => exact found.balanced attempts
  | concluded call result rest ends flights =>
      refine balanced_of_no_reply (hsilent rest) rfl rfl rfl (fun _ => flights 0) ?_
      rw [ends]
      rfl
  | nothing rest still flights =>
      refine balanced_of_no_reply (hsilent rest) rfl rfl rfl (fun _ => flights 0) ?_
      rw [still]
      rfl

-- ==================================================================== runs

/-- There is one instance. -/
def Alone (s : System σ) : Prop := ∀ n, (s.table? n).isSome = true ↔ n = 0

theorem alone_start (wall : Int) (store : σ) (policy : Policy) :
    (start wall store [policy]).Alone := by
  intro n
  cases n with
  | zero => exact ⟨fun _ => rfl, fun _ => rfl⟩
  | succ n => simp [start, table?]

/-- No instance comes or goes. -/
theorem Shift.isSome_table? (h : Shift B s e t) (n : Nat) :
    (t.table? n).isSome = (s.table? n).isSome := by
  cases h with
  | calm tables leaders => rw [tables]
  | called l event leads idle lacking tables leaders => rw [tables]
  | launched site caller u r policy attempts lacking there free tables leaders =>
      rw [tables]
      split
      · next hn =>
        rw [hn, there]
        rfl
      · rfl
  | ended l how m close tables leaders =>
      rw [tables, table?_finishFlight]
      split
      · exact Option.isSome_map
      · rfl

theorem Alone.shift (h : s.Alone) (hshift : Shift B s e t) : t.Alone := by
  intro n
  rw [hshift.isSome_table?]
  exact h n

theorem Alone.instance (h : s.Alone) : ∃ i, s.instances = [i] ∧ s.table? 0 = some i.flights := by
  have hzero := (h 0).mpr rfl
  have hone := mt (h 1).mp (by decide)
  unfold table? at hzero hone ⊢
  match hinstances : s.instances with
  | [] =>
      rw [hinstances] at hzero
      cases hzero
  | [i] => exact ⟨i, rfl, rfl⟩
  | i :: j :: rest =>
      rw [hinstances] at hone
      exact absurd rfl hone

/-- Every flight that has begun is in progress or over. -/
def Complete (s : System σ) : Prop := ∀ site u, s.table? site = some u → u.Complete

theorem complete_start (wall : Int) (store : σ) (policies : List Policy) :
    (start wall store policies).Complete := by
  intro site u hu
  rw [table?_start wall store policies hu]
  exact FlightTable.complete_empty

theorem Complete.shift (h : s.Complete) (hs : s.Coherent) (hshift : Shift B s e t) :
    t.Complete := by
  intro site u hu
  cases hshift with
  | calm tables leaders =>
      rw [tables] at hu
      exact h site u hu
  | called l event leads idle lacking tables leaders =>
      rw [tables] at hu
      exact h site u hu
  | launched n caller v r policy attempts lacking there free tables leaders =>
      rw [tables] at hu
      split at hu
      · cases hu
        exact (h n v there).join _
      · exact h site u hu
  | ended l how m close tables leaders =>
      rw [tables, table?_finishFlight] at hu
      split at hu
      · next hn =>
        subst hn
        obtain ⟨v, hv, hmem⟩ := mem_slots.mp (hs.flying l close.mem_leaders)
        rw [hv] at hu
        cases hu
        exact (h _ v hv).finish (hs.sound _ v hv) hmem how
      · exact h site u hu

/-- What was counted, and what it was counted for. -/
structure Books (s : System σ) (answers : List (Except ProxyError Replay))
    (closed : List CallId) : Prop where
  distinct : s.metrics.Distinct
  joins : s.metrics.total (· = .lookups .miss)
    = s.metrics.total (· = .joins .leader) + s.metrics.total (· = .joins .follower)
  begun : s.metrics.total (· = .joins .leader) = s.begun 0
  hits : s.metrics.total (· = .lookups .hit) = answers.countP isReplay
  conflicts : s.metrics.total (· = .lookups .conflict) = answers.countP isConflict
  calls : s.metrics.total countsCalls = closed.length

theorem books_start (wall : Int) (store : σ) (policy : Policy) :
    (start wall store [policy]).Books [] [] :=
  ⟨List.nodup_nil, rfl, rfl, rfl, rfl, rfl⟩

/-- Every step keeps the books balanced. -/
theorem Books.step {answers : List (Except ProxyError Replay)} {closed : List CallId}
    (h : s.Books answers closed) (alone : s.Alone) (ht : s.step B e = some t) :
    t.Books (answers ++ lookupReplies s e t) (closed ++ e.concluded?.toList) := by
  obtain ⟨cs, hadds, hcounts⟩ := step_counts ht
  obtain ⟨hdistinct, htotal⟩ := hadds h.distinct
  have hb := hcounts.balanced
  have hcount : ∀ c : Counter, (∀ operation, c ≠ .storeErrors operation) →
      t.metrics.total (· = c) = s.metrics.total (· = c) + cs.countP (· = c) := by
    intro c hc
    exact htotal _ fun operation => decide_eq_false (hc operation).symm
  have hcalls : t.metrics.total countsCalls = s.metrics.total countsCalls
      + cs.countP countsCalls := htotal _ fun _ => rfl
  have hbegun := hb.begun fun n => (alone n).mp
  refine ⟨hdistinct, ?_, ?_, ?_, ?_, ?_⟩
  · rw [hcount _ (by simp), hcount _ (by simp), hcount _ (by simp), h.joins, hb.joins]
    omega
  · rw [hcount _ (by simp), h.begun, hbegun]
  · rw [hcount _ (by simp), h.hits, ← hb.hits, List.countP_append]
  · rw [hcount _ (by simp), h.conflicts, ← hb.conflicts, List.countP_append]
  · rw [hcalls, h.calls, ← hb.calls, List.length_append]

theorem books_run {wall : Int} {store : σ} {policy : Policy} {events : List Event}
    (hr : (start wall store [policy]).run B events = some u) :
    u.Books (noted B lookupReplies (start wall store [policy]) events) (concluded events)
      ∧ u.Alone ∧ u.Complete := by
  refine run_induction (P := fun past u =>
    u.Books (noted B lookupReplies (start wall store [policy]) past) (concluded past)
      ∧ u.Alone ∧ u.Complete) hr
    ⟨books_start wall store policy, alone_start wall store policy,
      complete_start wall store [policy]⟩ ?_
  intro past e rest v w _ hv ⟨hbooks, halone, hcomplete⟩ hstep
  have hcoherent := (coherent_start wall store [policy]).run hv
  have hshift := (step_deed hstep).shift
  rw [noted_snoc hv hstep, concluded_snoc]
  exact ⟨hbooks.step halone hstep, halone.shift hshift, hcomplete.shift hcoherent hshift⟩

-- ============================================================ the theorem

/-- A leader dies at its call. Of the two that waited for it one starts over
and leads again, the other finds the store failing. The second call is
answered; then the request is repeated, its key is used for another one, and a
request with another key comes in. -/
def shaken : List Event :=
  [.arrive 0 0 Sample.order, .arrive 0 1 Sample.order, .lead 0 0, .crash 0 0, .wake 1,
    .wake 0, .lead 0 1, .answer 1 (.ok Sample.created), .arrive 0 2 Sample.order,
    .arrive 0 3 { Sample.order with body := [1] },
    .arrive 0 4 { Sample.order with key := some "second-order" }]

/-- A store that fails when it is asked for the fifth time. -/
def failing : ScriptedStore :=
  { ScriptedStore.empty with
    gets := [none, none, none, none, some (.error (.backend "down"))] }

end System

end OnceProxy.Proxy
