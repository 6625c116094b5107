/-
What a watched file delivers.

A configuration that loads comes from a text, was parsed, and has no problems
(`load_eq_ok`, `problems_of_parse`). A file delivers, event by event, what its
contents load to then; contents that do not load deliver nothing
(`watch_concat`, `exists_of_watch`).
-/
import OnceProxy.Config.Watch

namespace OnceProxy.Config

variable {c d : ProxyConfig} {contents : Octets} {events : List FileEvent}

/-- What there is of a result is the result. -/
theorem eq_ok_of_toOption {ε α : Type} {x : Except ε α} {a : α} (h : x.toOption = some a) :
    x = .ok a := by
  cases x with
  | error fault => cases h
  | ok b =>
      cases h
      rfl

-- =============================================================== loading

/-- A configuration is accepted, as it is, if it has no problems. -/
theorem validate_eq_ok : validate c = .ok d ↔ c.problems = [] ∧ c = d := by
  unfold validate
  rw [← List.isEmpty_iff]
  split
  · next h => simp [h]
  · next h => simp [h]

/-- A number that has to be positive is no problem just if it is. -/
theorem checkPositive_eq_nil {field : String} {n : UInt64} :
    checkPositive field n = [] ↔ 0 < n.toNat := by
  unfold checkPositive check
  by_cases hzero : n = 0
  · simp [hzero]
  · have hne : n.toNat ≠ 0 := fun h => hzero (UInt64.toNat_inj.mp h)
    simp [hzero, Nat.pos_of_ne_zero hne]

theorem problems_of_parse {text : String} (h : parse text = .ok c) : c.problems = [] := by
  unfold parse at h
  split at h
  · obtain ⟨hnone, rfl⟩ := validate_eq_ok.mp h
    exact hnone
  · cases h

/-- Contents load if they are a text that is parsed. -/
theorem load_eq_ok :
    load (some contents) = .ok c
      ↔ ∃ text, contents.toText? = some text ∧ parse text = .ok c := by
  unfold load
  rw [Option.bind_some]
  cases contents.toText? with
  | none => simp
  | some text => simp

-- ============================================================== watching

/-- The contents of a file after events. -/
def contentsAfter (contents : Octets) (events : List FileEvent) : Octets :=
  events.foldl FileEvent.contentsAfter contents

theorem watch_concat (contents : Octets) (events : List FileEvent) (e : FileEvent) :
    watch contents (events ++ [e])
      = watch contents events ++ [e.delivers (contentsAfter contents events)] := by
  induction events generalizing contents with
  | nil => rfl
  | cons first events ih =>
      show _ :: watch _ (events ++ [e]) = _ :: (watch _ events ++ _)
      rw [ih]
      rfl

/-- What an event delivers is what the contents load to. -/
theorem load_of_delivers {e : FileEvent} (h : e.delivers contents = some c) :
    load (some (e.contentsAfter contents)) = .ok c := by
  unfold FileEvent.delivers at h
  split at h
  · exact eq_ok_of_toOption h
  · cases h

/-- Whatever is delivered was in the file at some time, as the text of a
configuration without problems. -/
theorem exists_of_watch (h : some c ∈ watch contents events) :
    ∃ past e rest text, events = past ++ e :: rest
      ∧ (e.contentsAfter (contentsAfter contents past)).toText? = some text
      ∧ parse text = .ok c ∧ c.problems = [] := by
  induction events generalizing contents with
  | nil => cases h
  | cons first events ih =>
      rcases List.mem_cons.mp h with hnow | hlater
      · obtain ⟨text, htext, hparse⟩ := load_eq_ok.mp (load_of_delivers hnow.symm)
        exact ⟨[], first, events, text, rfl, htext, hparse, problems_of_parse hparse⟩
      · obtain ⟨past, e, rest, text, rfl, hrest⟩ := ih hlater
        exact ⟨first :: past, e, rest, text, rfl, hrest⟩

end OnceProxy.Config
