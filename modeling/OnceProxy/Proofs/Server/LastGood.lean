/-
The last good configuration is kept.

What is rejected leaves everything as it is (`Change.of_rejects`), and a
reload changes nothing in the proxy but the policies in force
(`Change.reload_under`). With what is known of these, a flight under way goes
on under the leader that it has, or ends by an event of its own, judged by a
policy that no reload can reach (`goesOn_or_ends`); and until the next request
comes in a run can do without its reloads (`run_unreloaded`).
-/
import OnceProxy.Proofs.Origin.Verification
import OnceProxy.Proofs.Proxy.FanOut
import OnceProxy.Proofs.Server.Reloading

namespace OnceProxy.Server

open Config Http Proxy Store

namespace Deployment

variable {d d' v w : Deployment} {e : DeploymentEvent} {events more : List DeploymentEvent}

-- ============================================================ rejections

/-- The event brings what is rejected: contents that do not load, or a
configuration without signer. -/
def Rejects (d : Deployment) : DeploymentEvent → Prop
  | .file e => ∀ c, load (some (e.contentsAfter d.contents)) ≠ .ok c
  | .take => ∃ c rest, d.updates = c :: rest ∧ signer? d.environment c = none
  | _ => False

/-- What is rejected leaves the proxy, the service and the reloader as they
are, and puts nothing into the queue. -/
theorem Change.of_rejects (h : Change d e d') (rejected : d.Rejects e) :
    d'.system = d.system ∧ d'.service = d.service ∧ d'.halfway = d.halfway
      ∧ d'.updates <:+ d.updates := by
  cases h with
  | loaded e =>
      have hnothing : e.delivers d.contents = none := by
        cases hdelivers : e.delivers d.contents with
        | none => rfl
        | some c => exact absurd (load_of_delivers hdelivers) (rejected c)
      refine ⟨rfl, rfl, rfl, ?_⟩
      show d.updates ++ (e.delivers d.contents).toList <:+ d.updates
      rw [hnothing]
      exact (List.append_nil d.updates).symm ▸ List.suffix_rfl
  | dropped c rest idle next unsigned =>
      refine ⟨rfl, rfl, rfl, ?_⟩
      rw [next]
      exact List.suffix_cons c rest
  | exchanged c rest signer s idle next signed happens =>
      obtain ⟨x, rest', hnext, hunsigned⟩ := rejected
      rw [next] at hnext
      cases hnext
      rw [signed] at hunsigned
      cases hunsigned
  | stored | turnedAway | admitted | worked => exact rejected.elim

-- =============================================================== blindness

/-- A reload changes nothing in the proxy but the policies in force. -/
theorem Change.reload_under (h : Change d e d') (reload : e.isReload = true) (p : Policy) :
    d'.system.under p = d.system.under p := by
  cases h with
  | loaded | dropped | stored => rfl
  | exchanged c rest signer s idle next signed happens =>
      have hview := System.exchange_under (B := MemoryStore.backend) d.system p 0
        (.ofConfig c signer)
      rw [happens] at hview
      exact Option.some.inj hview
  | turnedAway | admitted | worked => cases reload

-- ===================================================== flights under way

/-- In the course of the events the flight of the leader ends, by an event of
its own. Whoever ends it has gone on as the leader that it was, with its
policy, and ends it so whatever policy is in force. -/
def Ends (v : Deployment) (more : List DeploymentEvent) (l : Leader)
    (how : FlightEnd Outcome) : Prop :=
  ∃ front a rest u m st counted, more = front ++ .work a :: rest
    ∧ v.run front = some u ∧ l.GoesOn m
    ∧ System.Close MemoryStore.backend u.system a m how st counted
    ∧ ∀ p, System.Close MemoryStore.backend (u.system.under p) a m how st counted

theorem Ends.snoc {l : Leader} {how : FlightEnd Outcome} (h : v.Ends more l how) :
    v.Ends (more ++ [e]) l how := by
  obtain ⟨front, a, rest, u, m, st, counted, rfl, hends⟩ := h
  exact ⟨front, a, rest ++ [e], u, m, st, counted, by simp, hends⟩

/-- A flight goes on under its leader, or has ended by an event of its own. -/
theorem goesOn_or_ends (hv : v.system.Coherent) {l : Leader} (hl : l ∈ v.system.leaders)
    (h : v.run more = some w) :
    (∃ m ∈ w.system.leaders, l.GoesOn m)
      ∨ ∃ how, v.Ends more l how ∧ w.system.outcome? l.site l.guard.id = some how := by
  refine run_induction (P := fun more w => (∃ m ∈ w.system.leaders, l.GoesOn m)
      ∨ ∃ how, v.Ends more l how ∧ w.system.outcome? l.site l.guard.id = some how)
    h (.inl ⟨l, hl, rfl, rfl, rfl, rfl⟩) ?_
  intro past e u u' hu hP change
  have hcoherent := coherent_run hu hv
  rcases hP with ⟨m, hm, hgoes⟩ | ⟨how, hends, hout⟩
  · rcases change.system with hsame | ⟨a, happens, hwork⟩
    · rw [hsame]
      exact .inl ⟨m, hm, hgoes⟩
    · rcases hcoherent.leader_goesOn (System.step_deed happens) hm with
        ⟨o, ho, hnext⟩ | ⟨how, st, counted, hclose, hout⟩
      · exact .inl ⟨o, ho, hgoes.trans hnext⟩
      · rw [hwork m how st counted hclose]
        rw [hgoes.site, hgoes.guard] at hout
        exact .inr ⟨how, ⟨past, a, [], u, m, st, counted, rfl, hu, hgoes, hclose,
          fun p => hclose.under p⟩, hout⟩
  · refine .inr ⟨how, hends.snoc, ?_⟩
    rcases change.system with hsame | ⟨a, happens, -⟩
    · rw [hsame]
      exact hout
    · exact hcoherent.outcome?_keep (System.step_deed happens).shift hout

/-- Until the next request comes in, a run can do without its reloads, and
comes out the same but for the policies in force. -/
theorem run_unreloaded {v' : Deployment} (alike : ∀ p, v'.system.under p = v.system.under p)
    (still : ∀ e ∈ more, e.isRequest = false) (h : v.run more = some w) (q : Policy) :
    ∃ w', v'.run (more.filter fun e => !e.isReload) = some w'
      ∧ ∀ p, w'.system.under p = w.system.under p := by
  induction more generalizing v v' with
  | nil =>
      cases h
      exact ⟨v', rfl, alike⟩
  | cons e more ih =>
      obtain ⟨u, hu, hrest⟩ := run_cons h
      have hstill : ∀ f ∈ more, f.isRequest = false := fun f hf =>
        still f (List.mem_cons_of_mem _ hf)
      have hchange := step_change hu
      cases hreload : e.isReload with
      | true =>
          rw [List.filter_cons_of_neg (by simp [hreload])]
          refine ih (fun p => ?_) hstill hrest
          rw [alike, hchange.reload_under hreload]
      | false =>
          rw [List.filter_cons_of_pos (by simp [hreload])]
          cases hchange with
          | loaded | dropped | exchanged | stored => cases hreload
          | turnedAway | admitted => cases still _ (List.mem_cons_self ..)
          | worked a s internal happens =>
              have hother : a.arrival? = none := by
                cases a with
                | arrive site caller r => cases internal
                | _ => rfl
              -- the same event does the same in the other system
              have hview : ∀ p, (v'.system.step MemoryStore.backend a).map (·.under p)
                  = some (s.under p) := by
                intro p
                rw [← System.step_under v'.system p hother, alike,
                  System.step_under v.system p hother, happens]
                rfl
              obtain ⟨s', hs', -⟩ := Option.map_eq_some_iff.mp (hview q)
              have hstep : v'.step (.work a) = some { v' with system := s' } := by
                simp only [step, internal, perform, hs', if_true, Option.map_some]
              have halike : ∀ p, ({ v' with system := s' } : Deployment).system.under p
                  = ({ v with system := s } : Deployment).system.under p := by
                intro p
                have hp := hview p
                rw [hs'] at hp
                exact Option.some.inj hp
              obtain ⟨w', hw', hend⟩ := ih halike hstill hrest
              refine ⟨w', ?_, hend⟩
              unfold run
              rw [List.foldlM_cons, hstep]
              exact hw'

-- ============================================================ the theorem

/-- The last good configuration is kept. Let a server start from a
configuration, let anything be written to the file that it watches, and let
requests and all else come in between.

Whatever is delivered was in the file, as a text that was parsed, and has no
problems, and it is taken in the order in which it was delivered. The policy
in force is that of the latest configuration with a signer, among the first
one and those taken since, and so is the gate, unless the reloader is just
about to store it. What is rejected changes neither of them. No part of a
reload changes the store, a slot, the outcome of a flight or anything else but
the policies in force. And a flight under way goes on under its leader, or
ends by an event of its own under the policy that its leader had before;
until the next request comes in, the reloads can be left out and all flights
end in the same way. -/
theorem last_good_kept {surroundings : Surroundings} {contents : Octets} {c : ProxyConfig}
    {wall : Int} {d₀ : Deployment} (starts : start surroundings contents c wall = .ok d₀)
    (h : d₀.run events = some d) :
    (∀ x ∈ delivered contents events, ∃ past e rest text,
      fileEvents events = past ++ e :: rest
      ∧ (e.contentsAfter (contentsAfter contents past)).toText? = some text
      ∧ parse text = .ok x ∧ x.problems = [])
    ∧ delivered contents events = taken contents events ++ d.updates
    ∧ (∃ x signer, Latest surroundings.environment (c :: taken contents events) x signer
      ∧ d.system.policy? 0 = some (.ofConfig x signer)
      ∧ (d.halfway = none → d.service.auth = .ofConfig x.auth)
      ∧ ∀ auth, d.halfway = some auth → auth = .ofConfig x.auth)
    ∧ (∀ v e w, step v e = some w → v.Rejects e →
      w.system = v.system ∧ w.service = v.service ∧ w.halfway = v.halfway
      ∧ w.updates <:+ v.updates)
    ∧ (∀ v e w, step v e = some w → e.isReload = true →
      (w.system.store = v.system.store ∧ (∀ site, w.system.slots site = v.system.slots site)
        ∧ ∀ site id, w.system.outcome? site id = v.system.outcome? site id)
      ∧ ∀ p, w.system.under p = v.system.under p)
    ∧ ∀ past more v, events = past ++ more → d₀.run past = some v →
      (∀ l ∈ v.system.leaders, (∃ m ∈ d.system.leaders, l.GoesOn m)
        ∨ ∃ how, v.Ends more l how ∧ d.system.outcome? l.site l.guard.id = some how)
      ∧ ((∀ e ∈ more, e.isRequest = false) →
        ∃ w, v.run (more.filter fun e => !e.isReload) = some w
        ∧ (∀ site id, w.system.outcome? site id = d.system.outcome? site id)
        ∧ ∀ p, w.system.under p = d.system.under p) := by
  obtain ⟨hstart, hcoherent⟩ := current_start starts
  have hcurrent := Current.run starts h
  refine ⟨fun x hx => ?_, ?_, ?_, fun v e w hstep hr => (step_change hstep).of_rejects hr,
    fun v e w hstep hreload => ?_, fun past more v hsplit hv => ?_⟩
  · unfold delivered at hx
    obtain ⟨y, hy, rfl⟩ := List.mem_filterMap.mp hx
    exact exists_of_watch hy
  · rw [hcurrent.queue]
    exact (List.take_append_drop ..).symm
  · obtain ⟨x, signer, hlatest, hforce⟩ := hcurrent.inForce
    refine ⟨x, signer, hlatest, hforce.policy, fun hidle => ?_, fun auth hdue => ?_⟩
    · rw [← hforce.auth, hidle]
      rfl
    · rw [← hforce.auth, hdue]
      rfl
  · have hunder := (step_change hstep).reload_under hreload
    exact ⟨System.flights_of_under (hunder (.default Proxy.Sample.policy.signer)), hunder⟩
  · rw [hsplit, run_append, hv] at h
    have hrest : v.run more = some d := h
    refine ⟨fun l hl => goesOn_or_ends (coherent_run hv hcoherent) hl hrest, fun still => ?_⟩
    obtain ⟨w, hw, hunder⟩ := run_unreloaded (fun _ => rfl) still hrest Proxy.Sample.policy
    exact ⟨w, hw, (System.flights_of_under (hunder Proxy.Sample.policy)).2.2, hunder⟩

end Deployment

namespace Sample

/-- A configuration with a key. -/
def keyed : ProxyConfig := { signing := { privateKey := some keyText } }

/-- The text of a configuration that keeps one status only. -/
def strictText : String :=
  "[signing]\nprivate_key = \"" ++ keyText ++ "\"\n"
    ++ "[idempotency]\ndefinitive_statuses = [200]\n"

/-- The text of one that keeps a status that must not be kept. -/
def transientText : String := "[idempotency]\ndefinitive_statuses = [500]\n"

/-- While a call is out, another configuration is put in force. After that
the file holds what is no document, what has problems, and what has no key. -/
def replaced : List DeploymentEvent :=
  [.request 0 (.ofText "1") (Origin.Sample.inbound []) true, .work (.lead 0 0),
    .file (.written (.ofText strictText)), .take, .finish,
    .work (.answer 0 (.ok Proxy.Sample.created)),
    .file (.written (.ofText "=")), .file (.written (.ofText transientText)),
    .file (.written []), .take]

end Sample

/-- The deployment after these events stands under the configuration that was
put in force, and the flight has ended with a status that this one does not
list: its leader works under the policy that it had before. -/
theorem last_good_kept_replaced : ∃ d₀ d x signer result,
    Deployment.start (Sample.machine none) [] Sample.keyed 0 = .ok d₀
    ∧ d₀.run Sample.replaced = some d
    ∧ Latest none (Sample.keyed :: delivered [] Sample.replaced) x signer
    ∧ d.system.policy? 0 = some (.ofConfig x signer) ∧ d.service.auth = .ofConfig x.auth
    ∧ x.idempotency.definitiveStatuses = [200]
    ∧ d.system.outcome? 0 0 = some (.completed (.ok result)) ∧ result.entry.status = 201 := by
  have hview : (Deployment.start (Sample.machine none) [] Sample.keyed 0).toOption.bind
      (fun d₀ => (d₀.run Sample.replaced).map fun d =>
        (d.updates.isEmpty && d.halfway.isNone, (d.system.policy? 0).map (·.definitive),
          ((d.system.outcome? 0 0).bind System.resultOf).map (·.entry.status)))
      = some (true, some [200], some 201) := by
    decide +kernel
  obtain ⟨d₀, hd₀, hrun⟩ := Option.bind_eq_some_iff.mp hview
  obtain ⟨d, hd, hfacts⟩ := Option.map_eq_some_iff.mp hrun
  simp only [Prod.mk.injEq, Bool.and_eq_true, List.isEmpty_iff,
    Option.isNone_iff_eq_none] at hfacts
  obtain ⟨⟨hempty, hidle⟩, hlisted, hflight⟩ := hfacts
  obtain ⟨result, hresult, hstatus⟩ := Option.map_eq_some_iff.mp hflight
  obtain ⟨how, hout, hcompleted⟩ := Option.bind_eq_some_iff.mp hresult
  have hstart := eq_ok_of_toOption hd₀
  obtain ⟨-, hqueue, ⟨x, signer, hlatest, hpolicy, hauth, -⟩, -⟩ :=
    Deployment.last_good_kept hstart hd
  rw [hempty, List.append_nil] at hqueue
  rw [← hqueue] at hlatest
  refine ⟨d₀, d, x, signer, result, hstart, hd, hlatest, hpolicy, hauth hidle, ?_, ?_, hstatus⟩
  · rw [hpolicy] at hlisted
    exact Option.some.inj hlisted
  · rw [hout, System.eq_of_resultOf hcompleted]

end OnceProxy.Server
