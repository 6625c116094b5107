/-
Lanes: the proxy as the requests with one key see it.

A lane has the clocks and the policies, what the store keeps for the key, the
key's flights and those who wait for them, the calls made for the key and the
replies to its requests. There is nothing of other keys in it, and nothing
that they have a part in: no numbers of flights and calls, no versions. A
flight is known by its instance, since an instance has one flight in progress
for a key, and a call by its place among the calls for the key.

`next` says what an act does to a lane, given an origin whose answer to a
call depends on the call and on the earlier calls for the key.
-/
import OnceProxy.Proofs.Proxy.Origins
import OnceProxy.Proofs.Store.OneKey

namespace OnceProxy.Proxy

open Http Origin Store

deriving instance DecidableEq for Signer
deriving instance DecidableEq for Policy
deriving instance DecidableEq for Prepared

instance (r : Incoming) (key : IdempotencyKey) : Decidable (r.HasKey key) :=
  match hraw : r.key with
  | none => .isFalse fun ⟨_, h, _⟩ => by rw [hraw] at h; cases h
  | some raw =>
    match hkey : IdempotencyKey.parse raw with
    | .error _ => .isFalse fun ⟨_, h, hp⟩ => by
        rw [hraw] at h
        cases h
        rw [hkey] at hp
        cases hp
    | .ok k =>
      if h : k = key then .isTrue ⟨raw, hraw, h ▸ hkey⟩
      else .isFalse fun ⟨_, hr, hp⟩ => by
        rw [hraw] at hr
        cases hr
        rw [hkey] at hp
        cases hp
        exact h rfl

namespace Lane

-- =============================================================== parties

/-- A call in progress, by its place among the calls for the key. -/
structure Call where
  place : Nat
  deadline : Nat

/-- The leader of the key's flight at an instance. -/
structure Leader where
  site : Nat
  request : Prepared
  policy : Policy
  waiting : Option Call

/-- A caller that waits, and the end of its flight if that is over. -/
structure Waiter where
  caller : CallerId
  site : Nat
  request : Prepared
  policy : Policy
  joined : Nat
  ended : Option (FlightEnd Outcome)

/-- What can happen, as far as one key is concerned. The origin's answer is
not told, it follows from what the origin was asked. -/
inductive Act where
  | arrive (site : Nat) (caller : CallerId) (request : Prepared)
  | lead (site : Nat)
  | answer (site : Nat)
  | timeout (site : Nat)
  | crash (site : Nat)
  | wake (caller : CallerId)
  | leave (caller : CallerId)
  | elapse (ms : Nat)
  | advance (ms : Nat)
  | setPolicy (site : Nat) (policy : Policy)
  | sweep
  deriving DecidableEq

/-- The caller whose request arrives. -/
def Act.arrival? : Act → Option CallerId
  | .arrive _ caller _ => some caller
  | _ => none

end Lane

/-- What the requests with one key see of the proxy. -/
@[ext]
structure Lane where
  wall : Int
  elapsed : Nat
  policies : List Policy
  kept : Option Kept
  leaders : List Lane.Leader
  waiters : List Lane.Waiter
  calls : List Outbound
  replies : List (CallerId × Except ProxyError Replay)

namespace Lane

variable (v : Lane)

def now : UInt64 := UInt64.ofNat v.wall.toNat

def reply (caller : CallerId) (x : Except ProxyError Replay) : Lane :=
  { v with replies := v.replies ++ [(caller, x)] }

-- ================================================================ lookups

/-- The reply that what is kept gives to a request, and what is kept
afterwards. -/
def lookup (now : UInt64) (kept : Option Kept) (r : Prepared)
    (policy : Policy) : Option (Except ProxyError Replay) × Option Kept :=
  match Kept.read now kept with
  | .error e => (some (.error (.storeUnavailable (.store e))), kept)
  | .ok none => (none, kept)
  | .ok (some entry) =>
    if entry.answers r.fingerprint then
      (some (.ok (.ofEntry entry true)),
        if policy.refreshOnReplay then
          Kept.refresh now policy.entryTtl kept
        else kept)
    else (some (.error .conflict), kept)

def attempt (caller : CallerId) (site : Nat) (r : Prepared) (policy : Policy)
    (joined : Nat) : Lane :=
  match lookup v.now v.kept r policy with
  | (some x, kept) => { v with kept := kept }.reply caller x
  | (none, kept) =>
    { v with
      kept := kept
      leaders := if v.leaders.any (·.site = site) then v.leaders
        else v.leaders ++ [⟨site, r, policy, none⟩]
      waiters := v.waiters ++ [⟨caller, site, r, policy, joined + 1, none⟩] }

-- ================================================================ flights

def leaderAt (site : Nat) : Option Leader :=
  v.leaders.find? (·.site = site)

/-- Ends the key's flight at an instance. -/
def finish (site : Nat) (how : FlightEnd Outcome) : Lane :=
  { v with
    leaders := v.leaders.filter (·.site ≠ site)
    waiters := v.waiters.map fun w =>
      if w.site = site && w.ended.isNone then { w with ended := some how }
      else w }

/-- What a leader makes of the origin's reply, and what is kept then. -/
def resolve (now : UInt64) (kept : Option Kept) (l : Leader) (r : Reply) :
    Outcome × Option Kept :=
  match r with
  | .error e => (.error (.originUnavailable (.origin e)), kept)
  | .ok response =>
    match classify response.status l.policy with
    | .error e => (.error e, kept)
    | .ok () =>
      match Kept.put now (l.request.entryFor l.policy response now) kept with
      | (.error e, kept) => (.error (.storeUnavailable (.store e)), kept)
      | (.ok (.stored entry), kept) => (.ok ⟨entry, true⟩, kept)
      | (.ok (.held entry), kept) => (.ok ⟨entry, false⟩, kept)

def lead (site : Nat) : Option Lane := do
  let l ← v.leaderAt site
  if l.waiting.isSome then none
  else
    match Kept.read v.now v.kept with
    | .error e =>
      return v.finish site (.completed (.error (.storeUnavailable (.store e))))
    | .ok (some entry) => return v.finish site (.completed (.ok ⟨entry, false⟩))
    | .ok none =>
      return { v with
        calls := v.calls ++ [l.request.outbound l.policy v.now]
        leaders := v.leaders.map fun m =>
          if m.site = site then
            { m with
              waiting := some
                ⟨v.calls.length, v.elapsed + l.policy.originTimeout⟩ }
          else m }

/-- A leader that runs for the first time. -/
theorem lead_of_idle {site : Nat} {l : Leader}
    (leads : v.leaderAt site = some l) (idle : l.waiting = none) :
    v.lead site = some (match Kept.read v.now v.kept with
      | .error e =>
        v.finish site (.completed (.error (.storeUnavailable (.store e))))
      | .ok (some entry) => v.finish site (.completed (.ok ⟨entry, false⟩))
      | .ok none =>
        { v with
          calls := v.calls ++ [l.request.outbound l.policy v.now]
          leaders := v.leaders.map fun m =>
            if m.site = site then
              { m with
                waiting := some
                  ⟨v.calls.length, v.elapsed + l.policy.originTimeout⟩ }
            else m }) := by
  unfold lead
  rw [leads]
  simp only [Option.bind_eq_bind, Option.bind_some, idle,
    Option.isSome_none, Bool.false_eq_true, if_false]
  cases Kept.read v.now v.kept with
  | error e => rfl
  | ok found => cases found <;> rfl

/-- The origin's answer to the call at a place. -/
def answerTo (origin : List Outbound → Outbound → Reply)
    (calls : List Outbound) (place : Nat) : Option Reply :=
  (calls[place]?).map (origin (calls.take place))

def answer (origin : List Outbound → Outbound → Reply) (site : Nat) :
    Option Lane := do
  let l ← v.leaderAt site
  let c ← l.waiting
  if v.elapsed ≤ c.deadline then
    let r ← answerTo origin v.calls c.place
    let (outcome, kept) := resolve v.now v.kept l r
    return { v with kept := kept }.finish site (.completed outcome)
  else none

def timeout (site : Nat) : Option Lane := do
  let l ← v.leaderAt site
  let c ← l.waiting
  if c.deadline ≤ v.elapsed then
    return v.finish site (.completed (.error (System.timeoutError l.policy)))
  else none

def crash (site : Nat) : Option Lane := do
  let _ ← v.leaderAt site
  return v.finish site .aborted

-- =============================================================== callers

def dropWaiter (caller : CallerId) : Lane :=
  { v with waiters := v.waiters.filter (·.caller ≠ caller) }

def wake (caller : CallerId) : Option Lane := do
  let w ← v.waiters.find? (·.caller = caller)
  match ← w.ended with
  | .completed outcome =>
    return (v.dropWaiter caller).reply caller
      (settle outcome w.request.fingerprint)
  | .aborted =>
    if w.joined < System.maxLeadershipAttempts then
      return (v.dropWaiter caller).attempt caller w.site w.request w.policy
        w.joined
    else
      return (v.dropWaiter caller).reply caller
        (.error (.originUnavailable
          (.leadersAborted System.maxLeadershipAttempts)))

def arrive (site : Nat) (caller : CallerId) (r : Prepared) : Option Lane := do
  let policy ← v.policies[site]?
  return v.attempt caller site r policy 0

/-- What an act does, where it can happen. -/
def next (origin : List Outbound → Outbound → Reply) : Act → Option Lane
  | .arrive site caller r => v.arrive site caller r
  | .lead site => v.lead site
  | .answer site => v.answer origin site
  | .timeout site => v.timeout site
  | .crash site => v.crash site
  | .wake caller => v.wake caller
  | .leave caller =>
    if v.waiters.any (·.caller = caller) then some (v.dropWaiter caller)
    else none
  | .elapse ms => some { v with elapsed := v.elapsed + ms }
  | .advance ms => some { v with wall := v.wall + ms }
  | .setPolicy site policy =>
    some { v with policies := v.policies.modify site fun _ => policy }
  | .sweep => some { v with kept := v.kept.filter (·.isLive v.now) }

/-- What an event does that need not be an act of the key's. -/
def follow (origin : List Outbound → Outbound → Reply) : Option Act → Option Lane
  | some a => v.next origin a
  | none => some v

/-- What acts do one after the other. -/
def run (origin : List Outbound → Outbound → Reply) (acts : List Act) :
    Option Lane :=
  acts.foldlM (fun v a => v.next origin a) v

theorem run_snoc {origin : List Outbound → Outbound → Reply} {v w x : Lane}
    {acts : List Act} {act : Option Act} (hrun : v.run origin acts = some w)
    (hlast : w.follow origin act = some x) :
    v.run origin (acts ++ act.toList) = some x := by
  unfold run at hrun ⊢
  rw [List.foldlM_append, hrun]
  cases act with
  | none => exact hlast
  | some a =>
      have hnext : w.next origin a = some x := hlast
      simp [hnext]

theorem next_of_run {origin : List Outbound → Outbound → Reply}
    {v w x : Lane} {acts : List Act} {a : Act}
    (hrun : v.run origin acts = some w)
    (hlast : v.run origin (acts ++ [a]) = some x) :
    w.next origin a = some x := by
  unfold run at hrun hlast
  rw [List.foldlM_append, hrun] at hlast
  simpa using hlast

end Lane

end OnceProxy.Proxy
