/-
Reloads, step by step.

What a step of a deployment can do is listed once (`Change`). Along every run
the queue holds what was delivered and not yet taken, and the policy in force
and the gate are both made from one configuration, the latest of those taken
that has a signer (`Current`). Between the exchange of the policy and the
storing of the gate the latter is still in the reloader's hands; it counts as
stored then (`InForce`), which is what makes the two one.
-/
import OnceProxy.Proofs.Config.Watch
import OnceProxy.Proofs.Proxy.Exchanges
import OnceProxy.Proofs.Server.Startup
import OnceProxy.Server.Deployment
import OnceProxy.Server.Trial

namespace OnceProxy.Server

open Config Http Proxy Store

-- ============================================================== histories

/-- What the event does to the file, if it does anything. -/
def DeploymentEvent.file? : DeploymentEvent → Option FileEvent
  | .file e => some e
  | _ => none

def DeploymentEvent.isTake : DeploymentEvent → Bool
  | .take => true
  | _ => false

def DeploymentEvent.isRequest : DeploymentEvent → Bool
  | .request .. => true
  | _ => false

/-- What happens to the file. -/
def fileEvents (events : List DeploymentEvent) : List FileEvent :=
  events.filterMap DeploymentEvent.file?

/-- The configurations that the watcher delivers, in order. -/
def delivered (contents : Octets) (events : List DeploymentEvent) : List ProxyConfig :=
  (watch contents (fileEvents events)).filterMap id

/-- How many of them the reloader takes. -/
def takes (events : List DeploymentEvent) : Nat := events.countP (·.isTake)

/-- Those that it takes. -/
def taken (contents : Octets) (events : List DeploymentEvent) : List ProxyConfig :=
  (delivered contents events).take (takes events)

/-- The latest configuration that has a signer, and its signer. -/
def Latest (environment : Option String) (configs : List ProxyConfig) (c : ProxyConfig)
    (signer : Signer) : Prop :=
  ∃ front rest, configs = front ++ c :: rest ∧ signer? environment c = some signer
    ∧ ∀ x ∈ rest, signer? environment x = none

section Histories

variable {environment : Option String} {configs : List ProxyConfig} {c x : ProxyConfig}
  {signer : Signer} {contents : Octets} {events : List DeploymentEvent}

theorem latest_signed (h : signer? environment c = some signer) :
    Latest environment (configs ++ [c]) c signer :=
  ⟨configs, [], rfl, h, fun _ hx => absurd hx List.not_mem_nil⟩

theorem Latest.unsigned (h : Latest environment configs c signer)
    (hx : signer? environment x = none) : Latest environment (configs ++ [x]) c signer := by
  obtain ⟨front, rest, rfl, hsigner, hrest⟩ := h
  refine ⟨front, rest ++ [x], by simp, hsigner, fun y hy => ?_⟩
  rcases List.mem_append.mp hy with hold | hnew
  · exact hrest y hold
  · obtain rfl := List.mem_singleton.mp hnew
    exact hx

theorem delivered_file (contents : Octets) (events : List DeploymentEvent) (e : FileEvent) :
    delivered contents (events ++ [.file e]) = delivered contents events
      ++ (e.delivers (contentsAfter contents (fileEvents events))).toList := by
  unfold delivered fileEvents
  rw [List.filterMap_append, show [DeploymentEvent.file e].filterMap DeploymentEvent.file? = [e]
    from rfl, watch_concat, List.filterMap_append]
  cases e.delivers _ <;> rfl

theorem fileEvents_other {e : DeploymentEvent} (other : e.file? = none) :
    fileEvents (events ++ [e]) = fileEvents events := by
  unfold fileEvents
  rw [List.filterMap_append, List.filterMap_cons_none other]
  exact List.append_nil _

theorem takes_snoc (events : List DeploymentEvent) (e : DeploymentEvent) :
    takes (events ++ [e]) = takes events + if e.isTake then 1 else 0 := by
  unfold takes
  rw [List.countP_append, List.countP_singleton]

end Histories

namespace Deployment

variable {d d' v w : Deployment} {e : DeploymentEvent} {events more : List DeploymentEvent}

-- ================================================================== steps

/-- What a step can do. -/
inductive Change (d : Deployment) : DeploymentEvent → Deployment → Prop where
  /-- The file is loaded. -/
  | loaded (e : FileEvent) :
      Change d (.file e) { d with
        contents := e.contentsAfter d.contents
        updates := d.updates ++ (e.delivers d.contents).toList }
  /-- The next configuration has no signer. -/
  | dropped (c : ProxyConfig) (rest : List ProxyConfig) (idle : d.halfway = none)
      (next : d.updates = c :: rest) (unsigned : signer? d.environment c = none) :
      Change d .take { d with updates := rest }
  /-- It has one. -/
  | exchanged (c : ProxyConfig) (rest : List ProxyConfig) (signer : Signer)
      (s : System MemoryStore) (idle : d.halfway = none) (next : d.updates = c :: rest)
      (signed : signer? d.environment c = some signer)
      (happens : d.system.step MemoryStore.backend (.setPolicy 0 (.ofConfig c signer))
        = some s) :
      Change d .take { d with
        updates := rest
        halfway := some (.ofConfig c.auth)
        system := s }
  /-- The gate follows the policy. -/
  | stored (auth : AuthPolicy) (due : d.halfway = some auth) :
      Change d .finish { d with halfway := none, service := { d.service with auth } }
  /-- The proxy does not see the request. -/
  | turnedAway (caller : CallerId) (id : FieldValue) (r : Inbound) (isComplete : Bool) :
      Change d (.request caller id r isComplete) d
  /-- It does. -/
  | admitted (caller : CallerId) (id : FieldValue) (r : Inbound) (isComplete : Bool)
      (incoming : Incoming) (s : System MemoryStore)
      (happens : d.system.step MemoryStore.backend (.arrive 0 caller incoming) = some s) :
      Change d (.request caller id r isComplete) { d with system := s }
  | worked (e : Event) (s : System MemoryStore) (internal : isInternal e = true)
      (happens : d.system.step MemoryStore.backend e = some s) :
      Change d (.work e) { d with system := s }

theorem step_change (h : d.step e = some d') : Change d e d' := by
  have hperform : ∀ {b b' : Deployment} {a : Event}, b.perform a = some b' →
      ∃ s, b.system.step MemoryStore.backend a = some s ∧ b' = { b with system := s } := by
    intro b b' a hb
    obtain ⟨s, hs, rfl⟩ := Option.map_eq_some_iff.mp hb
    exact ⟨s, hs, rfl⟩
  cases e with
  | file e =>
      cases h
      exact .loaded e
  | take =>
      have htake : d.take = some d' := h
      unfold take at htake
      split at htake
      · next c rest idle next =>
        dsimp only at htake
        rw [reload_eq] at htake
        cases hsigner : signer? d.environment c with
        | none =>
            simp only [hsigner, Option.map_none] at htake
            cases htake
            exact .dropped c rest idle next hsigner
        | some signer =>
            simp only [hsigner, Option.map_some] at htake
            obtain ⟨s, hs, rfl⟩ := hperform htake
            exact .exchanged c rest signer s idle next hsigner hs
      · cases htake
  | finish =>
      obtain ⟨auth, hauth, rfl⟩ := Option.map_eq_some_iff.mp h
      exact .stored auth hauth
  | request caller id r isComplete =>
      simp only [step] at h
      split at h
      · next incoming _ =>
        obtain ⟨s, hs, rfl⟩ := hperform h
        exact .admitted caller id r isComplete incoming s hs
      all_goals
        cases h
        exact .turnedAway caller id r isComplete
  | work e =>
      simp only [step] at h
      split at h
      · next hinternal =>
        obtain ⟨s, hs, rfl⟩ := hperform h
        exact .worked e s hinternal hs
      · cases h

/-- In the proxy a step does nothing, or lets one event happen; one that ends
a flight is work. -/
theorem Change.system (h : Change d e d') :
    d'.system = d.system
      ∨ ∃ a, d.system.step MemoryStore.backend a = some d'.system
        ∧ ∀ l how st m, System.Close MemoryStore.backend d.system a l how st m →
          e = .work a := by
  cases h with
  | loaded | dropped | stored | turnedAway => exact .inl rfl
  | exchanged c rest signer s idle next signed happens =>
      exact .inr ⟨_, happens, fun l how st m close => by cases close⟩
  | admitted caller id r isComplete incoming s happens =>
      exact .inr ⟨_, happens, fun l how st m close => by cases close⟩
  | worked e s internal happens => exact .inr ⟨e, happens, fun _ _ _ _ _ => rfl⟩

theorem Change.coherent (h : Change d e d') (hd : d.system.Coherent) :
    d'.system.Coherent := by
  rcases h.system with hsame | ⟨a, happens, -⟩
  · rw [hsame]
    exact hd
  · exact hd.shift (System.step_deed happens).shift

-- =================================================================== runs

theorem run_cons (h : d.run (e :: events) = some d') :
    ∃ v, d.step e = some v ∧ v.run events = some d' := by
  unfold run at h
  rw [List.foldlM_cons] at h
  exact Option.bind_eq_some_iff.mp h

theorem run_append {behind : List DeploymentEvent} :
    d.run (events ++ behind) = (d.run events).bind (·.run behind) := by
  unfold run
  rw [List.foldlM_append]
  rfl

theorem run_snoc (h : d.run (events ++ [e]) = some d') :
    ∃ v, d.run events = some v ∧ v.step e = some d' := by
  rw [run_append] at h
  obtain ⟨v, hv, hlast⟩ := Option.bind_eq_some_iff.mp h
  obtain ⟨w, hw, hdone⟩ := run_cons hlast
  cases hdone
  exact ⟨v, hv, hw⟩

/-- What holds at first and is kept by every change of a run holds at its
end. It may speak of the events so far. -/
theorem run_induction {P : List DeploymentEvent → Deployment → Prop}
    (h : d.run events = some d') (first : P [] d)
    (next : ∀ past e v w, d.run past = some v → P past v → Change v e w →
      P (past ++ [e]) w) : P events d' := by
  induction events using List.reverseRecOn generalizing d' with
  | nil =>
      cases h
      exact first
  | append_singleton past e ih =>
      obtain ⟨v, hv, hstep⟩ := run_snoc h
      exact next past e v d' hv (ih hv) (step_change hstep)

theorem coherent_run (h : d.run events = some d') (hd : d.system.Coherent) :
    d'.system.Coherent :=
  run_induction (P := fun _ d => d.system.Coherent) h hd
    fun _ _ _ _ _ hv change => change.coherent hv

/-- A trial's reload is what a reloader does from the taking of the
configuration on, the storing of the gate included. -/
theorem run_reload (t : Trial) (c : ProxyConfig) (contents : Octets) :
    ∃ events, (events = [.take] ∨ events = [.take, .finish])
      ∧ (⟨none, contents, [c], none, t.service, t.rehearsal.system⟩ : Deployment).run events
        = some ⟨none, contents, [], none, (t.reload c).service,
          (t.reload c).rehearsal.system⟩ := by
  unfold Trial.reload
  cases hreload : reload none c with
  | none =>
      refine ⟨[.take], .inl rfl, ?_⟩
      simp only [run, List.foldlM_cons, step, take, hreload]
      rfl
  | some made =>
      obtain ⟨policy, auth⟩ := made
      refine ⟨[.take, .finish], .inr rfl, ?_⟩
      simp only [run, List.foldlM_cons, step, take, hreload]
      rfl

-- =============================================================== in force

/-- The policy and the gate of the configuration are in force. -/
structure InForce (c : ProxyConfig) (signer : Signer) (d : Deployment) : Prop where
  policy : d.system.policy? 0 = some (.ofConfig c signer)
  /-- The gate that is to be stored counts as stored. -/
  auth : d.halfway.getD d.service.auth = .ofConfig c.auth

/-- How a deployment stands that was started from a configuration. -/
structure Current (environment : Option String) (contents : Octets) (c : ProxyConfig)
    (events : List DeploymentEvent) (d : Deployment) : Prop where
  key : d.environment = environment
  file : d.contents = contentsAfter contents (fileEvents events)
  count : takes events ≤ (delivered contents events).length
  queue : d.updates = (delivered contents events).drop (takes events)
  inForce : ∃ x signer, Latest environment (c :: taken contents events) x signer
    ∧ d.InForce x signer

section Standing

variable {environment : Option String} {contents : Octets} {c : ProxyConfig}

/-- Events that touch neither the file nor the queue, nor the policy in
force. -/
theorem Current.calm (h : Current environment contents c events d)
    (hfile : e.file? = none) (htake : e.isTake = false)
    (hkey : d'.environment = d.environment) (hcontents : d'.contents = d.contents)
    (hupdates : d'.updates = d.updates)
    (hpolicy : d'.system.policy? 0 = d.system.policy? 0)
    (hauth : d'.halfway.getD d'.service.auth = d.halfway.getD d.service.auth) :
    Current environment contents c (events ++ [e]) d' := by
  have hdelivered : delivered contents (events ++ [e]) = delivered contents events := by
    unfold delivered
    rw [fileEvents_other hfile]
  have htakes : takes (events ++ [e]) = takes events := by
    rw [takes_snoc, htake]
    rfl
  obtain ⟨x, signer, hlatest, hforce⟩ := h.inForce
  refine ⟨hkey.trans h.key, ?_, ?_, ?_, x, signer, ?_, ?_, ?_⟩
  · rw [hcontents, fileEvents_other hfile, h.file]
  · rw [hdelivered, htakes]
    exact h.count
  · rw [hdelivered, htakes, hupdates, h.queue]
  · unfold taken at hlatest ⊢
    rw [hdelivered, htakes]
    exact hlatest
  · rw [hpolicy, hforce.policy]
  · rw [hauth, hforce.auth]

/-- Taking the next configuration. -/
theorem Current.taken_snoc (h : Current environment contents c events d)
    {x : ProxyConfig} {rest : List ProxyConfig} (next : d.updates = x :: rest) :
    takes (events ++ [.take]) ≤ (delivered contents (events ++ [.take])).length
      ∧ rest = (delivered contents (events ++ [.take])).drop (takes (events ++ [.take]))
      ∧ taken contents (events ++ [.take]) = taken contents events ++ [x] := by
  have hdelivered : delivered contents (events ++ [.take]) = delivered contents events := by
    unfold delivered
    rw [fileEvents_other rfl]
  have htakes : takes (events ++ [.take]) = takes events + 1 := takes_snoc events .take
  have hdrop := h.queue
  rw [next] at hdrop
  have hlt : takes events < (delivered contents events).length := by
    have hlength := congrArg List.length hdrop
    rw [List.length_cons, List.length_drop] at hlength
    omega
  rw [List.drop_eq_getElem_cons hlt] at hdrop
  obtain ⟨hx, hrest⟩ := List.cons.inj hdrop
  unfold taken
  rw [hdelivered, htakes]
  exact ⟨hlt, hrest, by rw [List.take_succ_eq_append_getElem hlt, hx]⟩

/-- Every change keeps a deployment in its standing. -/
theorem Current.change (h : Current environment contents c events d) (hd : Change d e d') :
    Current environment contents c (events ++ [e]) d' := by
  obtain ⟨y, signer, hlatest, hforce⟩ := h.inForce
  cases hd with
  | loaded e =>
      have htakes : takes (events ++ [.file e]) = takes events := takes_snoc events (.file e)
      have hcount := h.count
      refine ⟨h.key, ?_, ?_, ?_, y, signer, ?_, hforce.policy, hforce.auth⟩
      · show e.contentsAfter d.contents = _
        rw [h.file]
        unfold contentsAfter fileEvents
        rw [List.filterMap_append, List.foldl_append]
        rfl
      · rw [htakes, delivered_file, List.length_append]
        omega
      · show d.updates ++ (e.delivers d.contents).toList = _
        rw [htakes, delivered_file, List.drop_append_of_le_length hcount, h.queue, h.file]
      · unfold taken at hlatest ⊢
        rw [htakes, delivered_file, List.take_append_of_le_length hcount]
        exact hlatest
  | dropped x rest idle next unsigned =>
      obtain ⟨hcount, hrest, htaken⟩ := h.taken_snoc next
      refine ⟨h.key, ?_, hcount, hrest, y, signer, ?_, hforce.policy, hforce.auth⟩
      · rw [fileEvents_other rfl]
        exact h.file
      · rw [htaken, ← List.cons_append]
        rw [h.key] at unsigned
        exact hlatest.unsigned unsigned
  | exchanged x rest signer' s idle next signed happens =>
      obtain ⟨hcount, hrest, htaken⟩ := h.taken_snoc next
      refine ⟨h.key, ?_, hcount, hrest, x, signer', ?_,
        System.policy?_setPolicy hforce.policy happens, rfl⟩
      · rw [fileEvents_other rfl]
        exact h.file
      · rw [htaken, ← List.cons_append]
        rw [h.key] at signed
        exact latest_signed signed
  | stored auth due =>
      refine h.calm rfl rfl rfl rfl rfl rfl ?_
      rw [due]
      rfl
  | turnedAway caller id r isComplete => exact h.calm rfl rfl rfl rfl rfl rfl rfl
  | admitted caller id r isComplete incoming s happens =>
      exact h.calm rfl rfl rfl rfl rfl ((System.step_deed happens).policy? rfl 0) rfl
  | worked e s internal happens =>
      have hother : e.isExchange = false := by
        cases e with
        | setPolicy site policy => cases internal
        | _ => rfl
      exact h.calm rfl rfl rfl rfl rfl ((System.step_deed happens).policy? hother 0) rfl

/-- A deployment starts with what its server starts with. -/
theorem started_of_start {surroundings : Surroundings} {wall : Int}
    (starts : start surroundings contents c wall = .ok d) :
    ∃ started, Server.start surroundings (UInt64.ofNat wall.toNat) c = .ok started
      ∧ d = ⟨surroundings.environment, contents, [], none, started.service,
        .start wall started.store [started.policy]⟩ := by
  unfold start at starts
  cases hs : Server.start surroundings (UInt64.ofNat wall.toNat) c with
  | error fault =>
      rw [hs] at starts
      cases starts
  | ok started =>
      rw [hs] at starts
      cases starts
      exact ⟨started, rfl, rfl⟩

/-- A deployment starts under its configuration. -/
theorem current_start {surroundings : Surroundings} {wall : Int}
    (starts : start surroundings contents c wall = .ok d) :
    Current surroundings.environment contents c [] d ∧ d.system.Coherent := by
  obtain ⟨started, hstarted, rfl⟩ := started_of_start starts
  obtain ⟨signer, keyField, hsigner, hpolicy, hservice⟩ := start_eq_ok hstarted
  have hlatest : Latest surroundings.environment ([] ++ [c]) c signer := latest_signed hsigner
  refine ⟨⟨rfl, rfl, Nat.zero_le _, rfl, c, signer, hlatest, ?_, ?_⟩,
    System.coherent_start ..⟩
  · show some started.policy = _
    rw [hpolicy]
  · show started.service.auth = _
    rw [hservice]
    rfl

theorem Current.run {surroundings : Surroundings} {wall : Int} {d₀ : Deployment}
    (starts : start surroundings contents c wall = .ok d₀) (h : d₀.run events = some d) :
    Current surroundings.environment contents c events d :=
  run_induction (P := Current surroundings.environment contents c) h
    (current_start starts).1 fun _ _ _ _ _ hv change => hv.change change

end Standing

end Deployment

end OnceProxy.Server
