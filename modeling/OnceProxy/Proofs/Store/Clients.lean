/-
Operations call by call, and at once.

Where clients share a store, an operation is taken up again step by step
(`Gathering.step`); a proxy at its store runs it at one instant
(`Dialogue.run`). It is the same program: a step leaves the run to what is
left of the dialogue (`Dialogue.run_of_step`), and a client that begins and
is alone until it has ended ends as the run does, beside a store that is as
the run leaves it (`run_begin_alone`).
-/
import OnceProxy.Store.Clients

namespace OnceProxy.Store

namespace Dialogue

/-- If nothing comes between, a run is a step and the run of what is left. -/
theorem run_of_step {now : UInt64} {s t : MemoryStore} {d rest : Dialogue α}
    (h : d.step now s = some (rest, t)) (m : Metrics) :
    ∃ m', d.run MemoryStore.backend now (s, m)
      = rest.run MemoryStore.backend now (t, m') := by
  cases d with
  | done a | fail e => cases h
  | clock next =>
      cases h
      exact ⟨m, rfl⟩
  | ask q next =>
      cases h
      exact ⟨_, rfl⟩

/-- What is left of a dialogue that has come to an end. -/
def ended : Except StoreError α → Dialogue α
  | .ok a => .done a
  | .error e => .fail e

end Dialogue

namespace Gathering

variable {g h : Gathering}

-- ================================================================= steps

theorem step_proceed {i : Nat} (hstep : g.step (.proceed i) = some h) :
    ∃ c rest, g.clients[i]? = some c
      ∧ c.rest.step g.now g.store = some (rest, h.store)
      ∧ h = { g with
          store := h.store, clients := g.clients.set i ⟨c.operation, rest⟩ } := by
  obtain ⟨c, hc, hstep⟩ := Option.bind_eq_some_iff.mp hstep
  obtain ⟨⟨rest, store⟩, hrest, hstep⟩ := Option.bind_eq_some_iff.mp hstep
  cases hstep
  exact ⟨c, rest, hc, hrest, rfl⟩

theorem step_clock {now : UInt64} (hstep : g.step (.clock now) = some h) :
    g.now ≤ now ∧ h = { g with now := now } := by
  obtain ⟨hle, hstep⟩ := Option.ite_none_right_eq_some.mp hstep
  exact ⟨hle, (Option.some.inj hstep).symm⟩

/-- An operation under way takes its step. -/
theorem step_of_client {i : Nat} {o : Operation} {d rest : Dialogue o.Result}
    {t : MemoryStore} (hc : g.clients[i]? = some ⟨o, d⟩)
    (hstep : d.step g.now g.store = some (rest, t)) :
    g.step (.proceed i)
      = some { g with store := t, clients := g.clients.set i ⟨o, rest⟩ } := by
  unfold step
  simp only [hc, hstep, Option.bind_eq_bind, Option.bind_some]
  rfl

/-- A run takes its first action and then the others. -/
theorem run_cons (actions : List Action) :
    g.run (a :: actions) = (g.step a).bind (·.run actions) := by
  unfold run
  rw [List.foldlM_cons]
  rfl

-- ============================================================== alone

/-- Taken up again as often as it takes, a client ends as the run of what is
left. -/
def Finishes (g : Gathering) (i : Nat) (o : Operation)
    (d : Dialogue o.Result) : Prop :=
  ∀ m, ∃ n, g.run (.replicate n (.proceed i)) = some { g with
    store := (d.run MemoryStore.backend g.now (g.store, m)).2.1
    clients := g.clients.set i
      ⟨o, .ended (d.run MemoryStore.backend g.now (g.store, m)).1⟩ }

/-- A client that is through has finished. -/
theorem finishes_ended {i : Nat} {o : Operation}
    {x : Except StoreError o.Result}
    (hc : g.clients[i]? = some ⟨o, .ended x⟩) : g.Finishes i o (.ended x) := by
  refine fun m => ⟨0, ?_⟩
  have hset : g.clients.set i ⟨o, .ended x⟩ = g.clients := by
    obtain ⟨hi, hself⟩ := List.getElem?_eq_some_iff.mp hc
    rw [← hself, List.set_getElem_self]
  cases x with
  | ok a | error e => exact congrArg (fun cs => some { g with clients := cs }) hset.symm

/-- A client finishes if it does after its next step. -/
theorem finishes_of_step {i : Nat} {o : Operation}
    {d rest : Dialogue o.Result} {t : MemoryStore}
    (hc : g.clients[i]? = some ⟨o, d⟩)
    (hstep : d.step g.now g.store = some (rest, t))
    (hrest : Finishes
      { g with store := t, clients := g.clients.set i ⟨o, rest⟩ } i o rest) :
    g.Finishes i o d := by
  intro m
  obtain ⟨m', hrun⟩ := Dialogue.run_of_step hstep m
  obtain ⟨n, hn⟩ := hrest m'
  refine ⟨n + 1, ?_⟩
  rw [List.replicate_succ, run_cons, step_of_client hc hstep, Option.bind_some,
    hn, hrun, List.set_set]

/-- Nobody comes between, so a client ends as the run does. -/
theorem finishes {i : Nat} {o : Operation} {d : Dialogue o.Result}
    (hc : g.clients[i]? = some ⟨o, d⟩) : g.Finishes i o d := by
  have there {g : Gathering} {d : Dialogue o.Result}
      (hc : g.clients[i]? = some ⟨o, d⟩) : i < g.clients.length :=
    (List.getElem?_eq_some_iff.mp hc).1
  induction d generalizing g with
  | done a => exact finishes_ended (x := .ok a) hc
  | fail e => exact finishes_ended (x := .error e) hc
  | clock next ih =>
      exact finishes_of_step hc rfl (ih g.now (List.getElem?_set_self (there hc)))
  | ask q next ih =>
      exact finishes_of_step hc rfl (ih _ (List.getElem?_set_self (there hc)))

/-- An operation that begins and goes on with nothing in between gives what
it gives at once, and leaves the same store. The other clients stay where
they are. -/
theorem run_begin_alone (g : Gathering) (o : Operation) (m : Metrics) :
    ∃ n, g.run (.begin o :: .replicate n (.proceed g.clients.length))
      = some { g with
        store := (o.dialogue.run MemoryStore.backend g.now (g.store, m)).2.1
        clients := g.clients ++ [⟨o, .ended
          (o.dialogue.run MemoryStore.backend g.now (g.store, m)).1⟩] } := by
  obtain ⟨n, hn⟩ := finishes
    (g := { g with clients := g.clients ++ [⟨o, o.dialogue⟩] })
    List.getElem?_concat_length m
  refine ⟨n, ?_⟩
  rw [run_cons]
  refine hn.trans ?_
  simp

end Gathering

end OnceProxy.Store
