/-
Who hears of a shutdown, and what becomes of the server.

Each of the three listeners has before it exactly the triggers since it got
its receiver (`Orderly.before`), whatever else happens meanwhile. The
receivers are not taken at one instant, and with this the position of a
trigger among the three decides: one that comes when all three are there is
heard by all of them, and the server comes to its end; one that comes between
the server's receiver and a task's is lost to the task, and the server waits
for it.

# Why it comes to its end

`rest` counts the steps of the server's own that are left. Each of them takes
one off, nothing else changes it, and until the server has stopped there is
always one that can be taken (`Orderly.progress`).
-/
import Mathlib.Data.List.TakeWhile
import OnceProxy.Proofs.Shutdown.Broadcast
import OnceProxy.Server.Life

namespace OnceProxy.Server

-- ========================================================== what is counted

/-- The triggers since a listener got its receiver. -/
def calls (who : Listener) (events : List LifeEvent) : Nat :=
  (events.dropWhile (· ≠ .start who)).count .trigger

/-- An event that the server or one of its tasks makes happen. -/
def LifeEvent.isOwn : LifeEvent → Bool
  | .trigger | .visit => false
  | .start _ | .hear _ | .quit _ | .drain | .join _ | .save => true

/-- The stages that are still to come. -/
def Stage.left : Stage → Nat
  | .starting .server => 8
  | .starting (.task .sweeper) => 7
  | .starting (.task .reloader) => 6
  | .serving => 5
  | .draining => 4
  | .awaiting .sweeper => 3
  | .awaiting .reloader => 2
  | .saving => 1
  | .stopped => 0

/-- Receivers are given out before the server serves. -/
theorem serving_lt : ∀ who : Listener, Stage.serving.left < (Stage.starting who).left
  | .server => by decide
  | .task .sweeper => by decide
  | .task .reloader => by decide

/-- Tasks are waited for when the server has left its loop. -/
theorem awaiting_lt : ∀ t : Task, (Stage.awaiting t).left < Stage.serving.left
  | .sweeper => by decide
  | .reloader => by decide

/-- One, until a task has left its loop. -/
def Life.busy (l : Life) (t : Task) : Nat := if l.loop (.task t) = .left then 0 else 1

/-- The steps of the server's own that are still to come: its stages, and the
ends of its two tasks. -/
def Life.rest (l : Life) : Nat := l.stage.left + l.busy .sweeper + l.busy .reloader

variable {who : Listener} {past more events : List LifeEvent} {e : LifeEvent}

theorem dropWhile_start (h : .start who ∉ past) : past.dropWhile (· ≠ .start who) = [] := by
  rw [List.dropWhile_eq_nil_iff]
  intro x hx
  have hne : x ≠ .start who := fun hxw => h (hxw ▸ hx)
  simpa using hne

theorem dropWhile_start_ne (h : .start who ∈ past) :
    (past.dropWhile (· ≠ .start who)).isEmpty = false := by
  rw [List.isEmpty_eq_false_iff]
  intro hnil
  rw [List.dropWhile_eq_nil_iff] at hnil
  simpa using hnil _ h

theorem calls_append_of_mem (h : .start who ∈ past) :
    calls who (past ++ more) = calls who past + more.count .trigger := by
  rw [calls, List.dropWhile_append, dropWhile_start_ne h, if_neg (by simp),
    List.count_append, calls]

theorem calls_append_of_not_mem (h : .start who ∉ past) :
    calls who (past ++ more) = calls who more := by
  rw [calls, List.dropWhile_append, dropWhile_start h, List.isEmpty_nil, if_pos rfl, calls]

theorem calls_start (h : .start who ∉ past) : calls who (past ++ [.start who]) = 0 := by
  rw [calls_append_of_not_mem h]
  simp [calls]

theorem calls_le : calls who past ≤ calls who (past ++ more) := by
  by_cases h : .start who ∈ past
  · rw [calls_append_of_mem h]
    exact Nat.le_add_right ..
  · rw [calls, dropWhile_start h]
    exact Nat.zero_le _

namespace Life

variable {l m : Life} {id : SubscriberId}

-- ========================================================= what a step does

@[simp] theorem loop_setLoop (w : Listener) (loop : Loop) :
    (l.setLoop who loop).loop w = if w = who then loop else l.loop w := rfl

@[simp] theorem loop_leave (w : Listener) :
    (l.leave who id).loop w = if w = who then .left else l.loop w := rfl

/-- What a step can do, with what it needs. -/
inductive Change (l : Life) : LifeEvent → Life → Prop
  | triggered : Change l .trigger { l with shutdown := l.shutdown.trigger }
  | visited : Change l .visit { l with shutdown := l.shutdown.subscribe.2 }
  | started (who : Listener) (stage : l.stage = .starting who) :
      Change l (.start who)
        { l.setLoop who (.running l.shutdown.subscribe.1) with
          shutdown := l.shutdown.subscribe.2, stage := .afterStart who }
  | heard (who : Listener) (id : SubscriberId) (receipt : Receipt) (shutdown : Shutdown)
      (hw : l.loop who = .running id) (hl : l.listens who = true)
      (hr : l.shutdown.receive id = some (receipt, shutdown)) (hp : receipt ≠ .pending) :
      Change l (.hear who)
        { { l with shutdown }.leave who id with stage := l.stage.afterHear who }
  | ended (t : Task) (id : SubscriberId) (hw : l.loop (.task t) = .running id) :
      Change l (.quit t) (l.leave (.task t) id)
  | drained (stage : l.stage = .draining) :
      Change l .drain { l with stage := .awaiting .sweeper }
  | joined (t : Task) (stage : l.stage = .awaiting t) (hw : l.loop (.task t) = .left) :
      Change l (.join t) { l with stage := .afterJoin t }
  | saved (stage : l.stage = .saving) : Change l .save { l with stage := .stopped }

theorem step_change (h : l.step e = some m) : Change l e m := by
  cases e with
  | trigger =>
      cases h
      exact .triggered
  | visit =>
      cases h
      exact .visited
  | start who =>
      simp only [step, Option.ite_none_right_eq_some] at h
      obtain ⟨hs, h⟩ := h
      cases h
      exact .started who hs
  | hear who =>
      simp only [step] at h
      split at h
      · next id hw =>
        simp only [Option.ite_none_right_eq_some, Option.bind_eq_bind,
          Option.bind_eq_some_iff] at h
        obtain ⟨hl, ⟨receipt, shutdown⟩, hr, h⟩ := h
        simp only [Option.ite_none_left_eq_some] at h
        obtain ⟨hp, h⟩ := h
        cases h
        exact .heard who id receipt shutdown hw hl hr hp
      · cases h
      · cases h
  | quit t =>
      simp only [step] at h
      split at h
      · next id hw =>
        cases h
        exact .ended t id hw
      · cases h
      · cases h
  | drain =>
      simp only [step, Option.ite_none_right_eq_some] at h
      obtain ⟨hs, h⟩ := h
      cases h
      exact .drained hs
  | join t =>
      simp only [step, Option.ite_none_right_eq_some] at h
      obtain ⟨⟨hs, hw⟩, h⟩ := h
      cases h
      exact .joined t hs hw
  | save =>
      simp only [step, Option.ite_none_right_eq_some] at h
      obtain ⟨hs, h⟩ := h
      cases h
      exact .saved hs

theorem run_cons (h : l.run (e :: events) = some m) :
    ∃ k, l.step e = some k ∧ k.run events = some m := by
  unfold run at h
  rw [List.foldlM_cons] at h
  exact Option.bind_eq_some_iff.mp h

-- ============================================================ the invariant

/-- After the events of the past: a listener has its receiver from the stage
on that gives it one, receivers are different ones, each with the triggers
before it that came since; the server has left its loop when it serves no
more, a task when it has been waited for. -/
structure Orderly (l : Life) (past : List LifeEvent) : Prop where
  unborn : ∀ who, l.loop who = .unborn ↔ (Stage.starting who).left ≤ l.stage.left
  born : ∀ who, .start who ∈ past ↔ l.loop who ≠ .unborn
  fresh : ∀ who id, l.loop who = .running id → id < l.shutdown.nextId
  apart : ∀ who w id, l.loop who = .running id → l.loop w = .running id → who = w
  before : ∀ who id, l.loop who = .running id → l.shutdown.Before id (calls who past)
  server : l.loop .server = .left ↔ l.stage.left < Stage.serving.left
  joined : ∀ t, l.stage.left < (Stage.awaiting t).left → l.loop (.task t) = .left

theorem orderly_new : new.Orderly [] where
  unborn
    | .server => by decide
    | .task .sweeper => by decide
    | .task .reloader => by decide
  born := by intro who; simp [new]
  fresh := by intro who id h; cases h
  apart := by intro who w id h; cases h
  before := by intro who id h; cases h
  server := by simp [new, Stage.left]
  joined
    | .sweeper => by decide
    | .reloader => by decide

theorem calls_append_quiet (he : e ≠ .trigger) : calls who (past ++ [e]) = calls who past := by
  by_cases h : .start who ∈ past
  · rw [calls_append_of_mem h, List.count_singleton, if_neg (by simpa using he), Nat.add_zero]
  · have hnone : ([e].dropWhile (· ≠ .start who)).count .trigger = 0 := by
      rw [List.count_eq_zero]
      intro hin
      exact he (List.mem_singleton.mp ((List.dropWhile_sublist _).mem hin)).symm
    rw [calls_append_of_not_mem h, calls, hnone, calls, dropWhile_start h, List.count_nil]

/-- The invariant after an event that neither triggers nor starts: loops may
have been left, the stages with a receiver to come have not changed. -/
theorem Orderly.keep (h : l.Orderly past) (he : e ≠ .trigger) (hn : ∀ who, e ≠ .start who)
    (loop : ∀ who, m.loop who = l.loop who ∨ m.loop who = .left ∧ l.loop who ≠ .unborn)
    (next : l.shutdown.nextId ≤ m.shutdown.nextId)
    (before : ∀ who id n, m.loop who = .running id → l.shutdown.Before id n →
      m.shutdown.Before id n)
    (stage : m.stage = l.stage
      ∨ l.stage.left ≤ Stage.serving.left ∧ m.stage.left ≤ Stage.serving.left)
    (server : m.loop .server = .left ↔ m.stage.left < Stage.serving.left)
    (joined : ∀ t, m.stage.left < (Stage.awaiting t).left → m.loop (.task t) = .left) :
    m.Orderly (past ++ [e]) := by
  have hborn : ∀ who, m.loop who = .unborn ↔ l.loop who = .unborn := by
    intro who
    rcases loop who with hw | ⟨hw, hne⟩
    · rw [hw]
    · rw [hw]
      exact ⟨fun hl => absurd hl nofun, fun hl => absurd hl hne⟩
  have hrun : ∀ who id, m.loop who = .running id → l.loop who = .running id := by
    intro who id hw
    rcases loop who with hl | ⟨hl, -⟩
    · rw [← hl, hw]
    · rw [hl] at hw
      cases hw
  refine ⟨fun who => ?_, fun who => ?_, fun who id hw => ?_, fun who w id hw hw' => ?_,
    fun who id hw => ?_, server, joined⟩
  · rw [hborn, h.unborn]
    rcases stage with hs | ⟨hl, hm⟩
    · rw [hs]
    · have hlt := serving_lt who
      omega
  · rw [List.mem_append, List.mem_singleton, h.born, Ne, Ne, hborn]
    exact ⟨fun hor => hor.resolve_right fun heq => hn who heq.symm, .inl⟩
  · exact Nat.lt_of_lt_of_le (h.fresh who id (hrun who id hw)) next
  · exact h.apart who w id (hrun who id hw) (hrun w id hw')
  · rw [calls_append_quiet he]
    exact before who id _ hw (h.before who id (hrun who id hw))

/-- A listener that leaves its loop leaves the others with other numbers. -/
theorem Orderly.before_leave (h : l.Orderly past) {w : Listener} {i : SubscriberId}
    (hw : l.loop who = .running id) (hm : (l.leave who id).loop w = .running i) :
    i ≠ id := by
  rw [loop_leave] at hm
  split at hm
  · cases hm
  · next hne =>
    rintro rfl
    exact hne (h.apart w who i hm hw)

/-- Loops after one has been left. -/
theorem loop_leave_cases (hw : l.loop who = .running id) (w : Listener) :
    (l.leave who id).loop w = l.loop w
      ∨ (l.leave who id).loop w = .left ∧ l.loop w ≠ .unborn := by
  by_cases hww : w = who
  · subst hww
    exact .inr ⟨by simp, by rw [hw]; simp⟩
  · exact .inl (by simp [hww])

/-- A loop that has been left stays so when another is left. -/
theorem loop_leave_left {w : Listener} (hw : l.loop w = .left) :
    (l.leave who id).loop w = .left := by
  rw [loop_leave, hw, ite_self]

theorem Orderly.trigger (h : l.Orderly past) :
    Orderly { l with shutdown := l.shutdown.trigger } (past ++ [.trigger]) where
  unborn := h.unborn
  born := by simpa using h.born
  fresh := h.fresh
  apart := h.apart
  before := by
    intro who id hw
    have hin : .start who ∈ past := (h.born who).mpr (by rw [hw]; simp)
    rw [calls_append_of_mem hin]
    exact (h.before who id hw).trigger
  server := h.server
  joined := h.joined

theorem Orderly.start (h : l.Orderly past) (hs : l.stage = .starting who) :
    Orderly { l.setLoop who (.running l.shutdown.subscribe.1) with
      shutdown := l.shutdown.subscribe.2, stage := .afterStart who }
      (past ++ [.start who]) := by
  have hnew : l.loop who = .unborn := (h.unborn who).mpr (by rw [hs])
  have hout : .start who ∉ past := fun hin => (h.born who).mp hin hnew
  have hold : ∀ w i, l.loop w = .running i → i ≠ l.shutdown.nextId :=
    fun w i hw => Nat.ne_of_lt (h.fresh w i hw)
  refine ⟨fun w => ?_, fun w => ?_, fun w i hw => ?_, fun w v i hw hv => ?_,
    fun w i hw => ?_, ?_, fun t ht => ?_⟩
  · have hub := h.unborn w
    rw [hs] at hub
    rcases who with - | (- | -) <;> rcases w with - | (- | -) <;>
      simp_all [Stage.afterStart, Stage.left]
  · by_cases hww : w = who
    · subst hww
      simp
    · simp [hww, h.born]
  · simp only [loop_setLoop] at hw
    split at hw
    · cases hw
      exact Nat.lt_succ_self _
    · exact Nat.lt_succ_of_lt (h.fresh w i hw)
  · simp only [loop_setLoop] at hw hv
    split at hw <;> split at hv
    · next hw' hv' => rw [hw', hv']
    · cases hw
      exact absurd rfl (hold v _ hv)
    · cases hv
      exact absurd rfl (hold w _ hw)
    · exact h.apart w v i hw hv
  · simp only [loop_setLoop] at hw
    split at hw
    · next hww =>
      cases hw
      rw [hww, calls_start hout]
      exact Shutdown.before_subscribe
    · rw [calls_append_quiet (by simp)]
      exact (h.before w i hw).subscribe (hold w i hw)
  · have hserver := h.server
    rw [hs] at hserver
    rcases who with - | (- | -) <;> simp_all [Stage.afterStart, Stage.left]
  · have hlt : (Stage.awaiting t).left < (Stage.afterStart who).left := by
      have hserving : Stage.serving.left ≤ (Stage.afterStart who).left := by
        rcases who with - | (- | -) <;> decide
      exact Nat.lt_of_lt_of_le (awaiting_lt t) hserving
    exact absurd ht (Nat.lt_asymm hlt)

/-- Once the server serves no more it comes to its later stages with the
loops and the channel as they are. -/
theorem Orderly.late (h : l.Orderly past) (he : e ≠ .trigger) (hn : ∀ who, e ≠ .start who)
    {stage : Stage} (hl : l.stage.left < Stage.serving.left)
    (hs : stage.left < Stage.serving.left)
    (joined : ∀ t, stage.left < (Stage.awaiting t).left → l.loop (.task t) = .left) :
    Orderly { l with stage } (past ++ [e]) :=
  h.keep he hn (fun _ => .inl rfl) (Nat.le_refl _) (fun _ _ _ _ hb => hb)
    (.inr ⟨Nat.le_of_lt hl, Nat.le_of_lt hs⟩) ⟨fun _ => hs, fun _ => h.server.mpr hl⟩ joined

theorem Orderly.step (h : l.Orderly past) (hs : l.step e = some m) :
    m.Orderly (past ++ [e]) := by
  cases step_change hs with
  | triggered => exact h.trigger
  | visited =>
      refine h.keep (by simp) (by simp) (fun who => .inl rfl) (Nat.le_succ _) ?_
        (.inl rfl) h.server h.joined
      intro who id n hw hb
      exact hb.subscribe (Nat.ne_of_lt (h.fresh who id hw))
  | started who stage => exact h.start stage
  | heard who id receipt shutdown hw hl hr hp =>
      have hplaces : ∀ w i n, (l.leave who id).loop w = .running i →
          l.shutdown.Before i n → (shutdown.unsubscribe id).Before i n := by
        intro w i n hm hb
        have hne := h.before_leave hw hm
        exact (hb.receive hne hr).unsubscribe hne
      have hnext := (Shutdown.nextId_receive hr).ge
      cases who with
      | server =>
          have hserving : l.stage = .serving := by simpa [listens] using hl
          refine h.keep (by simp) (by simp) (loop_leave_cases hw) hnext hplaces
            (.inr ⟨by rw [hserving], by simp [Stage.afterHear, Stage.left]⟩)
            (by simp [Stage.afterHear, Stage.left]) ?_
          intro t ht
          cases t <;> simp [Stage.afterHear, Stage.left] at ht
      | task t =>
          refine h.keep (by simp) (by simp) (loop_leave_cases hw) hnext hplaces (.inl rfl)
            h.server ?_
          intro t' ht
          exact loop_leave_left (h.joined t' ht)
  | ended t id hw =>
      refine h.keep (by simp) (by simp) (loop_leave_cases hw) (Nat.le_refl _) ?_ (.inl rfl)
        h.server ?_
      · intro w i n hm hb
        exact hb.unsubscribe (h.before_leave hw hm)
      · intro t' ht
        exact loop_leave_left (h.joined t' ht)
  | drained stage =>
      refine h.late (by simp) (by simp) (by rw [stage]; decide) (by decide) ?_
      intro t ht
      cases t <;> simp [Stage.left] at ht
  | joined t stage hw =>
      have hlt := awaiting_lt t
      refine h.late (by simp) (by simp) (by rw [stage]; exact hlt) ?_ ?_
      · cases t <;> decide
      · intro t' ht
        by_cases htt : t' = t
        · rw [htt, hw]
        · refine h.joined t' ?_
          rw [stage]
          cases t <;> cases t' <;> simp_all [Stage.left, Stage.afterJoin]
  | saved stage =>
      refine h.late (by simp) (by simp) (by rw [stage]; decide) (by decide) fun t ht => ?_
      refine h.joined t ?_
      rw [stage]
      cases t <;> decide

theorem Orderly.run (h : l.Orderly past) (hr : l.run more = some m) :
    m.Orderly (past ++ more) := by
  induction more generalizing l past with
  | nil =>
      cases hr
      rw [List.append_nil]
      exact h
  | cons e more ih =>
      obtain ⟨k, hk, hrest⟩ := run_cons hr
      rw [List.append_cons]
      exact ih (h.step hk) hrest

-- ===================================================== being alerted

/-- A listener that has its receiver is alerted exactly if a trigger came
since, or it has left its loop. -/
theorem Orderly.alerted_iff (h : l.Orderly past) :
    l.Alerted who ↔ l.loop who = .left ∨ (l.loop who ≠ .unborn ∧ 0 < calls who past) := by
  constructor
  · rintro (hleft | ⟨id, n, hw, hn, hpos⟩)
    · exact .inl hleft
    · refine .inr ⟨by rw [hw]; simp, ?_⟩
      rw [(h.before who id hw).unread?] at hn
      cases hn
      exact hpos
  · rintro (hleft | ⟨hborn, hpos⟩)
    · exact .inl hleft
    · cases hw : l.loop who with
      | unborn => exact absurd hw hborn
      | left => exact .inl hw
      | running id => exact .inr ⟨id, _, hw, (h.before who id hw).unread?, hpos⟩

/-- One trigger since it got its receiver alerts a listener. -/
theorem Orderly.alerted (h : l.Orderly past) (hc : 0 < calls who past) : l.Alerted who := by
  have hin : .start who ∈ past := by
    by_contra hout
    rw [calls, dropWhile_start hout] at hc
    cases hc
  exact h.alerted_iff.mpr (.inr ⟨(h.born who).mp hin, hc⟩)

-- ======================================================== coming to an end

/-- A task that leaves its loop takes one off the steps to come. -/
theorem rest_leave {t : Task} (hw : l.loop (.task t) = .running id) :
    (l.leave (.task t) id).rest + 1 = l.rest := by
  have hstage : (l.leave (.task t) id).stage = l.stage := rfl
  cases t <;> simp [rest, busy, hw, hstage]
  omega

/-- Each step of the server's own takes one off those to come, nothing else
changes their number. -/
theorem Orderly.rest_step (h : l.Orderly past) (hs : l.step e = some m) :
    m.rest + (if e.isOwn then 1 else 0) = l.rest := by
  cases step_change hs with
  | triggered | visited => rfl
  | started who stage =>
      have hnew : l.loop who = .unborn := (h.unborn who).mpr (by rw [stage])
      rcases who with - | (- | -) <;>
        simp [rest, busy, stage, hnew, Stage.afterStart, Stage.left, LifeEvent.isOwn]
      all_goals omega
  | heard who id receipt shutdown hw hl hr hp =>
      cases who with
      | server =>
          have hserving : l.stage = .serving := by simpa [listens] using hl
          simp [rest, busy, hserving, Stage.afterHear, Stage.left, LifeEvent.isOwn]
          omega
      | task t => exact rest_leave hw
  | ended t id hw => exact rest_leave hw
  | drained stage =>
      simp only [rest, busy, stage, Stage.left, LifeEvent.isOwn, if_true]
      omega
  | joined t stage hw =>
      cases t <;>
        simp only [rest, busy, stage, Stage.afterJoin, Stage.left, LifeEvent.isOwn, if_true] <;>
        omega
  | saved stage =>
      simp only [rest, busy, stage, Stage.left, LifeEvent.isOwn, if_true]
      omega

theorem Orderly.rest_run (h : l.Orderly past) (hr : l.run more = some m) :
    m.rest + more.countP LifeEvent.isOwn = l.rest := by
  induction more generalizing l past with
  | nil =>
      cases hr
      rfl
  | cons e more ih =>
      obtain ⟨k, hk, hrest⟩ := run_cons hr
      rw [List.countP_cons, ← h.rest_step hk, ← ih (h.step hk) hrest]
      omega

/-- A listener that looks and is alerted can hear. -/
theorem Orderly.hear_isSome (h : l.Orderly past) (hw : l.loop who = .running id)
    (ha : l.Alerted who) (hl : l.listens who = true) : (l.step (.hear who)).isSome := by
  have hb := h.before who id hw
  have hpos : 0 < calls who past := by
    rcases h.alerted_iff.mp ha with hleft | ⟨-, hpos⟩
    · rw [hw] at hleft
      cases hleft
    · exact hpos
  obtain ⟨receipt, t, hr, hp⟩ := hb.receive_pos hpos
  simp [Life.step, hw, hl, hr, hp]

/-- While every listener that there is is alerted, there is a step of the
server's own until it has stopped. -/
theorem Orderly.progress (h : l.Orderly past)
    (ha : ∀ who, l.loop who ≠ .unborn → l.Alerted who) (hs : l.stage ≠ .stopped) :
    ∃ e, e.isOwn ∧ (l.step e).isSome := by
  have hborn : ∀ who, l.stage.left ≤ Stage.serving.left → l.loop who ≠ .unborn := by
    intro who hle
    rw [Ne, h.unborn]
    have hlt := serving_lt who
    omega
  cases hstage : l.stage with
  | starting who => exact ⟨.start who, rfl, by simp [Life.step, hstage]⟩
  | serving =>
      have hb := hborn .server (by rw [hstage])
      cases hw : l.loop .server with
      | unborn => exact absurd hw hb
      | left =>
          have hlt := h.server.mp hw
          rw [hstage] at hlt
          exact absurd hlt (Nat.lt_irrefl _)
      | running id =>
          exact ⟨.hear .server, rfl, h.hear_isSome hw (ha _ hb) (by simp [listens, hstage])⟩
  | draining => exact ⟨.drain, rfl, by simp [Life.step, hstage]⟩
  | awaiting t =>
      have hb := hborn (.task t) (by rw [hstage]; exact Nat.le_of_lt (awaiting_lt t))
      cases hw : l.loop (.task t) with
      | unborn => exact absurd hw hb
      | left => exact ⟨.join t, rfl, by simp [Life.step, hstage, hw]⟩
      | running id => exact ⟨.hear (.task t), rfl, h.hear_isSome hw (ha _ hb) rfl⟩
  | saving => exact ⟨.save, rfl, by simp [Life.step, hstage]⟩
  | stopped => exact absurd hstage hs

-- ========================================================= being passed by

/-- A listener with nothing before it stays in its loop until there is a
trigger, or it ends for a reason of its own. -/
theorem Orderly.stay {t : Task} (h : l.Orderly past) (hw : l.loop (.task t) = .running id)
    (hc : calls (.task t) past = 0) (ht : e ≠ .trigger) (hq : e ≠ .quit t)
    (hs : l.step e = some m) : m.loop (.task t) = .running id := by
  cases step_change hs with
  | triggered => exact absurd rfl ht
  | visited | drained | joined | saved => exact hw
  | started w stage =>
      have hne : .task t ≠ w := by
        rintro rfl
        rw [(h.unborn _).mpr (by rw [stage])] at hw
        cases hw
      rw [loop_setLoop, if_neg hne, hw]
  | heard w i receipt shutdown hi hl hr hp =>
      have hne : .task t ≠ w := by
        rintro rfl
        rw [hw] at hi
        cases hi
        have hb := h.before (.task t) id hw
        rw [hc] at hb
        rw [hb.receive_zero] at hr
        cases hr
        exact hp rfl
      rw [loop_leave, if_neg hne]
      exact hw
  | ended t' i hi =>
      have hne : Listener.task t ≠ .task t' := by
        intro heq
        cases heq
        exact hq rfl
      rw [loop_leave, if_neg hne, hw]

theorem Orderly.stay_run {t : Task} (h : l.Orderly past)
    (hw : l.loop (.task t) = .running id) (hc : calls (.task t) past = 0)
    (ht : .trigger ∉ more) (hq : .quit t ∉ more) (hr : l.run more = some m) :
    m.loop (.task t) = .running id := by
  induction more generalizing l past with
  | nil =>
      cases hr
      exact hw
  | cons e more ih =>
      obtain ⟨k, hk, hrest⟩ := run_cons hr
      obtain ⟨hte, ht⟩ := List.ne_and_not_mem_of_not_mem_cons ht
      obtain ⟨hqe, hq⟩ := List.ne_and_not_mem_of_not_mem_cons hq
      refine ih (h.step hk) (h.stay hw hc hte.symm hqe.symm hk) ?_ ht hq hrest
      rw [calls_append_quiet hte.symm, hc]

/-- The server does not get past a task that is in its loop. -/
theorem Orderly.not_stopped {t : Task} (h : l.Orderly past)
    (hw : l.loop (.task t) = .running id) : l.stage ≠ .stopped := by
  intro hs
  have hleft := h.joined t (by rw [hs]; cases t <;> decide)
  rw [hw] at hleft
  cases hleft

/-- A task that no trigger has come for is not alerted, and keeps the server
from stopping until there is one, or it ends for a reason of its own. -/
theorem Orderly.passed_by {t : Task} (h : l.Orderly past)
    (hw : l.loop (.task t) = .running id) (hc : calls (.task t) past = 0) :
    ¬ l.Alerted (.task t)
    ∧ ∀ more m, .trigger ∉ more → .quit t ∉ more → l.run more = some m →
        m.stage ≠ .stopped := by
  constructor
  · rw [h.alerted_iff, hw, hc]
    simp
  · intro more m ht hq hm
    exact (h.run hm).not_stopped (h.stay_run hw hc ht hq hm)

-- ================================================================ shutdown

/-- After any events: a listener has before it exactly the triggers since it
got its receiver, so that one such trigger alerts it for good. Once there was
a trigger with all three receivers there, every step of the server's own is
one less of those to come, and until it has stopped there is one that can be
taken. A task that no trigger has come for since it got its receiver is not
alerted, and the server does not stop before there is another or the task
ends for a reason of its own. -/
theorem triggers_heard (h : new.run events = some l) :
    (∀ who id, l.loop who = .running id → l.shutdown.unread? id = some (calls who events))
    ∧ (∀ who, 0 < calls who events → ∀ more m, l.run more = some m → m.Alerted who)
    ∧ ((∀ who, 0 < calls who events) → ∀ more m, l.run more = some m →
        m.rest + more.countP LifeEvent.isOwn = l.rest
        ∧ (m.stage = .stopped ∨ ∃ e, e.isOwn ∧ (m.step e).isSome))
    ∧ (∀ t id, l.loop (.task t) = .running id → calls (.task t) events = 0 →
        ¬ l.Alerted (.task t)
        ∧ ∀ more m, .trigger ∉ more → .quit t ∉ more → l.run more = some m →
          m.stage ≠ .stopped) := by
  have ho : l.Orderly events := by simpa using orderly_new.run h
  refine ⟨fun who id hw => (ho.before who id hw).unread?, ?_, ?_,
    fun t id hw hc => ho.passed_by hw hc⟩
  · intro who hc more m hm
    exact (ho.run hm).alerted (Nat.lt_of_lt_of_le hc calls_le)
  · intro hc more m hm
    refine ⟨ho.rest_run hm, ?_⟩
    by_cases hs : m.stage = .stopped
    · exact .inl hs
    · refine .inr ((ho.run hm).progress (fun who _ => ?_) hs)
      exact (ho.run hm).alerted (Nat.lt_of_lt_of_le (hc who) calls_le)

namespace Sample

/-- The sweeper hears of the trigger before the server serves. -/
def shutdown : List LifeEvent :=
  [.start .server, .start (.task .sweeper), .start (.task .reloader), .trigger,
    .hear (.task .sweeper), .hear .server]

/-- The trigger comes before the tasks are spawned. -/
def early : List LifeEvent :=
  [.start .server, .trigger, .start (.task .sweeper), .start (.task .reloader)]

theorem run_shutdown : (new.run shutdown).map (fun l => (l.rest, l.loop (.task .reloader)))
    = some (5, .running 2) := by
  decide +kernel

theorem run_early : (new.run early).map (fun l =>
      (l.loop .server, l.loop (.task .sweeper), l.loop (.task .reloader)))
    = some (.running 0, .running 1, .running 2) := by
  decide +kernel

end Sample

/-- The reloader has the trigger still before it; the server is at most five
steps from its end, and one of them can be taken. -/
theorem triggers_heard_shutdown : ∃ l, new.run Sample.shutdown = some l
    ∧ l.shutdown.unread? 2 = some 1
    ∧ ∀ more m, l.run more = some m → m.Alerted (.task .reloader)
      ∧ m.rest + more.countP LifeEvent.isOwn = 5
      ∧ (m.stage = .stopped ∨ ∃ e, e.isOwn ∧ (m.step e).isSome) := by
  obtain ⟨l, hl, hview⟩ := Option.map_eq_some_iff.mp Sample.run_shutdown
  obtain ⟨hrest, hloop⟩ := Prod.mk.injEq .. ▸ hview
  obtain ⟨hread, halert, hend, -⟩ := triggers_heard hl
  have hcalls : ∀ who, 0 < calls who Sample.shutdown
    | .server => by decide
    | .task .sweeper => by decide
    | .task .reloader => by decide
  refine ⟨l, hl, hread (.task .reloader) 2 hloop, fun more m hm => ?_⟩
  obtain ⟨hsum, hstep⟩ := hend hcalls more m hm
  exact ⟨halert _ (hcalls _) more m hm, hsum.trans hrest, hstep⟩

/-- A trigger that comes after the server got its receiver and before its
tasks got theirs: the server is alerted, the tasks are not, and the server
does not stop. -/
theorem triggers_may_be_lost : ∃ l, new.run Sample.early = some l
    ∧ l.Alerted .server ∧ ¬ l.Alerted (.task .sweeper) ∧ ¬ l.Alerted (.task .reloader)
    ∧ ∀ more m, .trigger ∉ more → .quit .sweeper ∉ more → l.run more = some m →
        m.stage ≠ .stopped := by
  obtain ⟨l, hl, hview⟩ := Option.map_eq_some_iff.mp Sample.run_early
  obtain ⟨-, hrest⟩ := Prod.mk.injEq .. ▸ hview
  obtain ⟨hsweeper, hreloader⟩ := Prod.mk.injEq .. ▸ hrest
  have ho : l.Orderly Sample.early := by simpa using orderly_new.run hl
  obtain ⟨hdeaf, hwait⟩ := ho.passed_by hsweeper (by decide)
  exact ⟨l, hl, ho.alerted (by decide), hdeaf, (ho.passed_by hreloader (by decide)).1, hwait⟩

end Life

end OnceProxy.Server
