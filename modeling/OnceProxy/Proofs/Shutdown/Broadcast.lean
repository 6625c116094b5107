/-
Who has how many signals before it.

A subscriber's place in the broadcast is what it has behind it; what it has
before it is the rest of what was sent (`Before`). A signal adds one to
everybody's rest, a subscription begins at the tail with none, and nothing
that one subscriber does moves another.
-/
import OnceProxy.Shutdown.Broadcast

namespace OnceProxy.Shutdown

variable {s t : Shutdown} {id other : SubscriberId} {n : Nat} {receipt : Receipt}

/-- A subscriber has `n` signals before it. -/
def Before (s : Shutdown) (id : SubscriberId) (n : Nat) : Prop :=
  ∃ read, s.subscribers.lookup id = some read ∧ read + n = s.sent

theorem Before.unread? (h : s.Before id n) : s.unread? id = some n := by
  obtain ⟨read, hread, hsum⟩ := h
  simp only [Shutdown.unread?, hread, Option.map_some, Option.some.injEq]
  omega

/-- A new subscriber has none before it. -/
theorem before_subscribe : s.subscribe.2.Before s.subscribe.1 0 :=
  ⟨s.sent, List.lookup_cons_self, rfl⟩

theorem Before.subscribe (h : s.Before id n) (hid : id ≠ s.nextId) :
    s.subscribe.2.Before id n := by
  obtain ⟨read, hread, hsum⟩ := h
  refine ⟨read, ?_, hsum⟩
  show List.lookup id ((s.nextId, s.sent) :: s.subscribers) = _
  rw [List.lookup_cons, beq_false_of_ne hid]
  exact hread

theorem Before.trigger (h : s.Before id n) : s.trigger.Before id (n + 1) := by
  obtain ⟨read, hread, hsum⟩ := h
  refine ⟨read, hread, ?_⟩
  show read + (n + 1) = s.sent + 1
  omega

theorem lookup_unsubscribe (hid : id ≠ other) :
    (s.unsubscribe other).subscribers.lookup id = s.subscribers.lookup id := by
  show (s.subscribers.filter (·.1 ≠ other)).lookup id = _
  induction s.subscribers with
  | nil => rfl
  | cons p l ih =>
      obtain ⟨q, read⟩ := p
      by_cases hq : q = other
      · subst hq
        rw [List.filter_cons_of_neg (by simp), List.lookup_cons,
          beq_false_of_ne hid, ih]
      · rw [List.filter_cons_of_pos (by simpa using hq), List.lookup_cons,
          List.lookup_cons, ih]

theorem lookup_moveOn (hid : id ≠ other) (left : Nat) :
    (s.moveOn other left).subscribers.lookup id = s.subscribers.lookup id := by
  show (s.subscribers.map _).lookup id = _
  induction s.subscribers with
  | nil => rfl
  | cons p l ih =>
      obtain ⟨q, read⟩ := p
      rw [List.map_cons, List.lookup_cons, List.lookup_cons, ih]
      by_cases hq : q = other
      · subst hq
        rw [if_pos rfl, beq_false_of_ne hid]
      · rw [if_neg hq]

theorem Before.unsubscribe (h : s.Before id n) (hid : id ≠ other) :
    (s.unsubscribe other).Before id n := by
  obtain ⟨read, hread, hsum⟩ := h
  exact ⟨read, by rw [lookup_unsubscribe hid, hread], hsum⟩

/-- What a look can do: find nothing and change nothing, or move its
subscriber on. -/
theorem receive_cases (h : s.receive id = some (receipt, t)) :
    (receipt = .pending ∧ t = s) ∨ (receipt ≠ .pending ∧ ∃ left, t = s.moveOn id left) := by
  simp only [receive, Option.map_eq_some_iff] at h
  obtain ⟨unread, -, h⟩ := h
  split at h
  · cases h
    exact .inl ⟨rfl, rfl⟩
  · split at h
    · cases h
      exact .inr ⟨by simp, 0, rfl⟩
    · cases h
      exact .inr ⟨by simp, 1, rfl⟩

/-- A look moves nobody else. -/
theorem Before.receive (h : s.Before id n) (hid : id ≠ other)
    (hr : s.receive other = some (receipt, t)) : t.Before id n := by
  obtain ⟨-, rfl⟩ | ⟨-, left, rfl⟩ := receive_cases hr
  · exact h
  · obtain ⟨read, hread, hsum⟩ := h
    exact ⟨read, by rw [lookup_moveOn hid, hread], hsum⟩

/-- A look gives out no number. -/
theorem nextId_receive (hr : s.receive id = some (receipt, t)) : t.nextId = s.nextId := by
  obtain ⟨-, rfl⟩ | ⟨-, left, rfl⟩ := receive_cases hr <;> rfl

/-- With nothing before it a subscriber finds nothing. -/
theorem Before.receive_zero (h : s.Before id 0) : s.receive id = some (.pending, s) := by
  simp [Shutdown.receive, h.unread?]

/-- With something before it a subscriber finds that there is. -/
theorem Before.receive_pos (h : s.Before id n) (hn : 0 < n) :
    ∃ receipt t, s.receive id = some (receipt, t) ∧ receipt ≠ .pending := by
  have hne : n ≠ 0 := by omega
  simp only [Shutdown.receive, h.unread?, Option.map_some, if_neg hne]
  by_cases h1 : n = 1
  · exact ⟨_, _, congrArg some (if_pos h1), by simp⟩
  · exact ⟨_, _, congrArg some (if_neg h1), by simp⟩

end OnceProxy.Shutdown
