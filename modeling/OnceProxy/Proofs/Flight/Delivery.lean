/-
Delivery: what the handles of a flight learn of its end.

A handle belongs to the flight that its join found or started; the guard of
that flight is the one outstanding for the key right after the join
(`Boards`). As long as the guard is outstanding the flight has no end, and
when it is given back the end is that of its way (`guard_run`,
`outcome?_of_ends`). An end stays: the flights that can still end have none
yet, so no later end takes the place of an earlier one (`outcome?_run`).

Flights of one key follow one another with numbers that grow
(`guard_old_or_new`). So a handle that outlives its flight shares neither
number nor end with the flights that come after.
-/
import OnceProxy.Proofs.Flight.Exclusion

namespace OnceProxy.Traffic

open FlightTable

variable {α : Type} {t u : Traffic α} {acts : List (Act α)}

-- ==================================================== ends, along a run

/-- An end is not replaced. -/
theorem Orderly.outcome?_run (h : t.Orderly) (hr : t.run acts = some u)
    {id : FlightId} {e : FlightEnd α}
    (he : t.table.outcome? id = some e) : u.table.outcome? id = some e := by
  induction acts generalizing t with
  | nil =>
      cases hr
      exact he
  | cons a acts ih =>
      obtain ⟨v, hv, hrest⟩ := run_cons hr
      apply ih (h.step hv) hrest
      cases step_change hv with
      | joined key ha table =>
          rw [table, outcome?_join]
          exact he
      | ended g how ha held hv' =>
          subst hv'
          exact h.outcome?_keep held how he
      | kept ha hj table =>
          rw [table]
          exact he

/-- Once a guard has been given back, its flight has the end of that. -/
theorem Orderly.outcome?_of_ends (h : t.Orderly) (hr : t.run acts = some u)
    {a : Act α} (ha : a ∈ acts) {g : FlightGuard} {how : FlightEnd α}
    (hends : a.ends? = some (g, how)) :
    u.table.outcome? g.id = some how := by
  induction acts generalizing t with
  | nil => cases ha
  | cons b acts ih =>
      obtain ⟨v, hv, hrest⟩ := run_cons hr
      rcases List.mem_cons.mp ha with rfl | ha'
      · cases step_change hv with
        | joined key hjoin =>
            subst hjoin
            cases hends
        | ended g' how' hends' held hv' =>
            cases hends.symm.trans hends'
            have hnow : v.table.outcome? g.id = some how := by
              subst hv'
              show (t.table.finish g how).outcome? g.id = _
              rw [outcome?_finish, if_pos rfl]
            exact (h.step hv).outcome?_run hrest hnow
        | kept hnone =>
            rw [hnone] at hends
            cases hends
      · exact ih (h.step hv) hrest ha'

/-- A guard stays outstanding until it is given back. -/
theorem guard_run (hr : t.run acts = some u) {g : FlightGuard}
    (hg : g ∈ t.guards) :
    g ∈ u.guards ∨ ∃ a ∈ acts, ∃ how, a.ends? = some (g, how) := by
  induction acts generalizing t with
  | nil =>
      cases hr
      exact .inl hg
  | cons b acts ih =>
      obtain ⟨v, hv, hrest⟩ := run_cons hr
      have hstep : g ∈ v.guards ∨ ∃ how, b.ends? = some (g, how) := by
        cases step_change hv with
        | joined key ha table guards =>
            left
            rw [guards]
            split
            · exact List.mem_cons_of_mem _ hg
            · exact hg
        | ended g' how ha held hv' =>
            by_cases hsame : g = g'
            · subst hsame
              exact .inr ⟨how, ha⟩
            · subst hv'
              exact .inl ((List.mem_erase_of_ne hsame).mpr hg)
        | kept ha hj table guards =>
            rw [guards]
            exact .inl hg
      rcases hstep with hkept | ⟨how, hends⟩
      · rcases ih hrest hkept with hlast | ⟨a, ha, hlater⟩
        · exact .inl hlast
        · exact .inr ⟨a, List.mem_cons_of_mem _ ha, hlater⟩
      · exact .inr ⟨b, List.mem_cons_self .., how, hends⟩

/-- While its guard is outstanding, a flight has no end. -/
theorem Orderly.outcome?_guard (h : t.Orderly) {g : FlightGuard}
    (hg : g ∈ t.guards) : t.table.outcome? g.id = none :=
  h.sound.apart _ (h.mem_guards.mp hg)

-- ====================================================== numbers that grow

theorem nextId_step {a : Act α} (hs : t.step a = some u) :
    t.table.nextId ≤ u.table.nextId := by
  cases step_change hs with
  | joined key ha table =>
      rw [table]
      unfold join
      split
      · exact Nat.le_refl _
      · exact Nat.le_succ _
  | ended g how ha held hu =>
      subst hu
      exact Nat.le_refl _
  | kept ha hj table => exact Nat.le_of_eq (by rw [table])

theorem nextId_run (hr : t.run acts = some u) :
    t.table.nextId ≤ u.table.nextId := by
  induction acts generalizing t with
  | nil =>
      cases hr
      exact Nat.le_refl _
  | cons a acts ih =>
      obtain ⟨v, hv, hrest⟩ := run_cons hr
      exact Nat.le_trans (nextId_step hv) (ih hrest)

/-- A guard that was not outstanding before has a number not given out
before. -/
theorem guard_old_or_new (hr : t.run acts = some u) {g : FlightGuard}
    (hg : g ∈ u.guards) : g ∈ t.guards ∨ t.table.nextId ≤ g.id := by
  induction acts generalizing t with
  | nil =>
      cases hr
      exact .inl hg
  | cons a acts ih =>
      obtain ⟨v, hv, hrest⟩ := run_cons hr
      rcases ih hrest with hold | hnew
      · cases step_change hv with
        | joined key ha table guards =>
            rw [guards] at hold
            cases hk : t.table.slots.lookup key with
            | some id =>
                rw [join_of_some hk] at hold
                exact .inl hold
            | none =>
                rw [join_of_none hk] at hold
                rcases List.mem_cons.mp hold with rfl | hold'
                · exact .inr (Nat.le_refl _)
                · exact .inl hold'
        | ended g' how ha held hv' =>
            subst hv'
            exact .inl (List.mem_of_mem_erase hold)
        | kept ha hj table guards =>
            rw [guards] at hold
            exact .inl hold
      · exact .inr (Nat.le_trans (nextId_step hv) hnew)

/-- Guards with the same number, outstanding at two instants, are the same
guard. -/
theorem Orderly.guard_unique (h : t.Orderly) (hr : t.run acts = some u)
    {g g' : FlightGuard} (hg : g ∈ t.guards) (hg' : g' ∈ u.guards)
    (hid : g.id = g'.id) : g = g' := by
  have hslot := h.mem_guards.mp hg
  rcases guard_old_or_new hr hg' with hold | hnew
  · have hslot' := h.mem_guards.mp hold
    rw [← hid] at hslot'
    have hkey := h.sound.key_unique hslot hslot'
    cases g
    cases g'
    simp only at hkey hid
    rw [hkey, hid]
  · have hlt := h.sound.slot_lt _ hslot
    rw [← hid] at hnew
    exact absurd hlt (Nat.not_lt.mpr hnew)

-- =============================================================== boarding

/-- Within `acts`, the join after `front` gives out the handle `i`, and `g`
is the guard that is outstanding for its key right after it. -/
structure Boards (acts front : List (Act α)) (i : FlightId)
    (g : FlightGuard) : Prop where
  within : front ++ [.join g.key] <+: acts
  joined : ∃ s t : Traffic α, empty.run front = some s
    ∧ s.step (.join g.key) = some t ∧ t.handles = i :: s.handles
    ∧ g ∈ t.guards

/-- The join after `front` gives out the guard `g`, which was not
outstanding before. -/
def Leads (acts front : List (Act α)) (g : FlightGuard) : Prop :=
  Boards acts front g.id g
    ∧ ∀ s : Traffic α, empty.run front = some s → g ∉ s.guards

theorem run_append {xs ys : List (Act α)} :
    t.run (xs ++ ys) = (t.run xs).bind (·.run ys) := by
  unfold run
  rw [List.foldlM_append]
  rfl

/-- Before a run was over, it had come to the end of each of its prefixes. -/
theorem run_prefix {front : List (Act α)} (hp : front <+: acts)
    (hr : t.run acts = some u) :
    ∃ v rest, acts = front ++ rest ∧ t.run front = some v
      ∧ v.run rest = some u := by
  obtain ⟨rest, rfl⟩ := hp
  rw [run_append] at hr
  obtain ⟨v, hv, hrest⟩ := Option.bind_eq_some_iff.mp hr
  exact ⟨v, rest, rfl, hv, hrest⟩

theorem run_singleton (a : Act α) : t.run [a] = t.step a := by
  unfold run
  simp

theorem handles_join {key : EntryKey} (hs : t.step (.join key) = some u) :
    u.handles = (t.table.join key).2.1 :: t.handles := by
  cases hs
  rfl

/-- A join gives a handle of the flight whose guard is outstanding for the
key after it. -/
theorem Orderly.join_guard (h : t.Orderly) {key : EntryKey}
    (hs : t.step (.join key) = some u) :
    ⟨key, (t.table.join key).2.1⟩ ∈ u.guards := by
  rw [(h.step hs).mem_guards]
  cases hs
  cases hk : t.table.slots.lookup key with
  | some id =>
      simp only [join_of_some hk]
      exact Association.mem_of_lookup hk
  | none =>
      simp only [join_of_none hk]
      exact List.mem_cons_self ..

/-- A handle is known by the number of its flight. -/
theorem Boards.id_eq {front : List (Act α)} {i : FlightId} {g : FlightGuard}
    (hb : Boards acts front i g) : i = g.id := by
  obtain ⟨s, t, hs, ht, hhandles, hg⟩ := hb.joined
  have ho := orderly_empty.run hs
  have hown := ho.join_guard ht
  have hsame : g = ⟨g.key, (s.table.join g.key).2.1⟩ :=
    List.inj_on_of_nodup_map (ho.step ht).nodup_keys hg hown rfl
  rw [handles_join ht] at hhandles
  obtain ⟨hi, -⟩ := List.cons_eq_cons.mp hhandles
  rw [← hi, hsame]

/-- What is left of a run after a boarding. -/
theorem Boards.rest {front : List (Act α)} {i : FlightId} {g : FlightGuard}
    (hb : Boards acts front i g) (hr : empty.run acts = some u) :
    ∃ t rest, acts = front ++ [.join g.key] ++ rest
      ∧ empty.run (front ++ [.join g.key]) = some t ∧ g ∈ t.guards
      ∧ t.run rest = some u := by
  obtain ⟨s, t, hs, ht, -, hg⟩ := hb.joined
  obtain ⟨v, rest, hacts, hv, hrest⟩ := run_prefix hb.within hr
  have hsame : v = t := by
    rw [run_append, hs, Option.bind_some, run_singleton, ht] at hv
    exact (Option.some.inj hv).symm
  subst hsame
  exact ⟨v, rest, hacts, hv, hg, hrest⟩

/-- Every handle in use came from a join, or was in use before. -/
theorem mem_inUse_run (hr : t.run acts = some u) {i : FlightId}
    (hi : i ∈ u.inUse) :
    i ∈ t.inUse ∨ ∃ front key s, front ++ [.join key] <+: acts
      ∧ t.run front = some s ∧ i = (s.table.join key).2.1 := by
  induction acts generalizing t with
  | nil =>
      cases hr
      exact .inl hi
  | cons a acts ih =>
      obtain ⟨v, hv, hrest⟩ := run_cons hr
      rcases ih hrest with hold | ⟨front, key, s, hp, hs, hkey⟩
      · cases step_change hv with
        | joined key ha table guards handles rest =>
            rw [mem_inUse, handles, rest.1, rest.2, List.mem_cons] at hold
            rcases hold with (hnew | hold) | hold
            · subst ha
              exact .inr ⟨[], key, t, ⟨acts, rfl⟩, rfl, hnew⟩
            · exact .inl (mem_inUse.mpr (.inl hold))
            · exact .inl (mem_inUse.mpr (.inr hold))
        | ended g how ha held hv' =>
            subst hv'
            exact .inl hold
        | kept ha hj table guards inUse =>
            exact .inl (inUse i hold)
      · refine .inr ⟨a :: front, key, s, ?_, ?_, hkey⟩
        · rw [List.cons_append, List.prefix_cons_inj]
          exact hp
        · unfold run
          rw [List.foldlM_cons, hv]
          exact hs

/-- Every handle has boarded a flight. -/
theorem exists_boards (hr : empty.run acts = some u) {i : FlightId}
    (hi : i ∈ u.inUse) : ∃ front g, Boards acts front i g := by
  rcases mem_inUse_run hr hi with hnone | ⟨front, key, s, hp, hs, rfl⟩
  · cases hnone
  · have ho := orderly_empty.run hs
    exact ⟨front, ⟨key, (s.table.join key).2.1⟩, hp, s, _, hs, rfl, rfl,
      ho.join_guard rfl⟩

/-- Of two boardings with the same number, the guard is the same. -/
theorem Boards.guard_eq (hr : empty.run acts = some u)
    {front front' : List (Act α)} {i : FlightId} {g g' : FlightGuard}
    (hb : Boards acts front i g) (hb' : Boards acts front' i g') :
    g = g' := by
  obtain ⟨t, rest, hacts, ht, hg, -⟩ := hb.rest hr
  obtain ⟨t', rest', hacts', ht', hg', -⟩ := hb'.rest hr
  have hid : g.id = g'.id := hb.id_eq.symm.trans hb'.id_eq
  rcases List.prefix_or_prefix_of_prefix hb.within hb'.within with hp | hp
  · obtain ⟨v, between, -, hv, hbetween⟩ := run_prefix hp ht'
    cases hv.symm.trans ht
    exact (orderly_empty.run ht).guard_unique hbetween hg hg' hid
  · obtain ⟨v, between, -, hv, hbetween⟩ := run_prefix hp ht
    cases hv.symm.trans ht'
    exact ((orderly_empty.run ht').guard_unique hbetween hg' hg hid.symm).symm

/-- After the join that gave it out, a guard is not given out again. -/
theorem Leads.not_later (hr : empty.run acts = some u)
    {front front' : List (Act α)} {g : FlightGuard}
    (hl : Leads acts front g) (hl' : Leads acts front' g) :
    ¬ front ++ [.join g.key] <+: front' := by
  intro hp
  obtain ⟨t, -, -, ht, hg, -⟩ := hl.1.rest hr
  obtain ⟨s, t', hs, ht', -, hg'⟩ := hl'.1.joined
  obtain ⟨v, between, -, hv, hbetween⟩ := run_prefix hp hs
  cases hv.symm.trans ht
  have hfree := hl'.2 s hs
  have hlt : g.id < t.table.nextId := by
    have ho := orderly_empty.run ht
    exact ho.sound.slot_lt _ (ho.mem_guards.mp hg)
  have hle : s.table.nextId ≤ g.id := by
    rcases guard_old_or_new ((run_singleton _).trans ht') hg' with hold | hnew
    · exact absurd hold hfree
    · exact hnew
  have hgrow := nextId_run hbetween
  exact absurd hlt (Nat.not_lt.mpr (Nat.le_trans hgrow hle))

/-- A guard is given out once. -/
theorem Leads.front_eq (hr : empty.run acts = some u)
    {front front' : List (Act α)} {g : FlightGuard}
    (hl : Leads acts front g) (hl' : Leads acts front' g) :
    front = front' := by
  have hp : front <+: acts := (List.prefix_append ..).trans hl.1.within
  have hp' : front' <+: acts := (List.prefix_append ..).trans hl'.1.within
  rcases Nat.lt_trichotomy front.length front'.length with hlt | heq | hlt
  · refine absurd ?_ (hl.not_later hr hl')
    exact List.prefix_of_prefix_length_le hl.1.within hp'
      (by simpa using Nat.succ_le_of_lt hlt)
  · exact (List.prefix_of_prefix_length_le hp hp' (Nat.le_of_eq heq)).eq_of_length
      heq
  · refine absurd ?_ (hl'.not_later hr hl)
    exact List.prefix_of_prefix_length_le hl'.1.within hp
      (by simpa using Nat.succ_le_of_lt hlt)

-- =============================================================== delivery

/-- The flight of a handle is on exactly as long as its guard is
outstanding. -/
theorem Boards.outcome?_none (hr : empty.run acts = some u)
    {front : List (Act α)} {i : FlightId} {g : FlightGuard}
    (hb : Boards acts front i g) :
    u.table.outcome? i = none ↔ g ∈ u.guards := by
  obtain ⟨t, rest, hacts, ht, hg, hrest⟩ := hb.rest hr
  rw [hb.id_eq]
  refine ⟨fun hnone => ?_, (orderly_empty.run hr).outcome?_guard⟩
  rcases guard_run hrest hg with hout | ⟨a, ha, how, hends⟩
  · exact hout
  · have hlater := (orderly_empty.run ht).outcome?_of_ends hrest ha hends
    rw [hlater] at hnone
    cases hnone

/-- Its end is that of the way in which the guard was given back. -/
theorem Boards.outcome?_some (hr : empty.run acts = some u)
    {front : List (Act α)} {i : FlightId} {g : FlightGuard}
    (hb : Boards acts front i g) (how : FlightEnd α) :
    u.table.outcome? i = some how ↔ ∃ a ∈ acts, a.ends? = some (g, how) := by
  rw [hb.id_eq]
  constructor
  · intro hsome
    obtain ⟨t, rest, hacts, ht, hg, hrest⟩ := hb.rest hr
    rcases guard_run hrest hg with hout | ⟨a, ha, how', hends⟩
    · rw [(orderly_empty.run hr).outcome?_guard hout] at hsome
      cases hsome
    · rw [(orderly_empty.run ht).outcome?_of_ends hrest ha hends] at hsome
      cases hsome
      refine ⟨a, ?_, hends⟩
      rw [hacts]
      exact List.mem_append_right _ ha
  · rintro ⟨a, ha, hends⟩
    exact orderly_empty.outcome?_of_ends hr ha hends

theorem ends?_completed {a : Act α} {g : FlightGuard} {outcome : α} :
    a.ends? = some (g, .completed outcome) ↔ a = .complete g outcome := by
  cases a <;> simp [Act.ends?]

theorem ends?_aborted {a : Act α} {g : FlightGuard} :
    a.ends? = some (g, .aborted) ↔ a = .drop g := by
  cases a <;> simp [Act.ends?]

/-- A wait is over exactly if its flight is. -/
theorem isSome_hear {i : FlightId} (hi : i ∈ t.waits) :
    (t.step (.hear i)).isSome ↔ t.table.outcome? i ≠ none := by
  simp only [step, if_pos hi]
  cases t.table.outcome? i <;> simp

/-- After any calls in any order, every handle in use belongs to a flight,
and learns of it what becomes of its guard: nothing while the guard is
outstanding, its outcome exactly if it has been completed with that, and the
abort exactly if it has been dropped. That is also what waits have yielded,
and a wait goes on exactly as long as the guard is outstanding. Two handles
are of one flight exactly if their guards are the same, and a guard is given
out once. -/
theorem outcomes_delivered {acts : List (Act α)}
    (h : empty.run acts = some u) :
    (∀ i ∈ u.inUse, ∃ front g, Boards acts front i g)
    ∧ (∀ front i g, Boards acts front i g →
        (u.table.outcome? i = none ↔ g ∈ u.guards)
        ∧ (∀ outcome, u.table.outcome? i = some (.completed outcome)
            ↔ .complete g outcome ∈ acts)
        ∧ (u.table.outcome? i = some .aborted ↔ .drop g ∈ acts)
        ∧ (∀ how, (i, how) ∈ u.heard → u.table.outcome? i = some how)
        ∧ (i ∈ u.waits → ((u.step (.hear i)).isSome ↔ g ∉ u.guards)))
    ∧ (∀ front front' i i' g g', Boards acts front i g →
        Boards acts front' i' g' → (i = i' ↔ g = g'))
    ∧ (∀ front front' g, Leads acts front g → Leads acts front' g →
        front = front') := by
  refine ⟨fun i hi => exists_boards h hi, ?_, ?_,
    fun front front' g hl hl' => hl.front_eq h hl'⟩
  · intro front i g hb
    have hopen := hb.outcome?_none h
    refine ⟨hopen, fun outcome => ?_, ?_, fun how hp => ?_, fun hw => ?_⟩
    · rw [hb.outcome?_some h]
      simp only [ends?_completed, exists_eq_right]
    · rw [hb.outcome?_some h]
      simp only [ends?_aborted, exists_eq_right]
    · exact (orderly_empty.run h).heard _ hp
    · rw [isSome_hear hw, Ne, hopen]
  · intro front front' i i' g g' hb hb'
    constructor
    · rintro rfl
      exact hb.guard_eq h hb'
    · rintro rfl
      exact hb.id_eq.trans hb'.id_eq.symm

theorem boards_relay :
    Boards Sample.relay [.join (.ofNat 7)] 0 ⟨.ofNat 7, 0⟩ :=
  ⟨⟨Sample.relay.drop 2, rfl⟩, _, _, rfl, rfl, rfl, by decide⟩

/-- The follower of the first flight hears of its outcome, though the next
flight of the key is on. -/
theorem outcomes_delivered_relay :
    empty.run Sample.relay = some Sample.relayed
    ∧ Sample.relayed.table.outcome? 0 = some (.completed 42)
    ∧ ⟨.ofNat 7, 0⟩ ∉ Sample.relayed.guards := by
  obtain ⟨-, hends, -⟩ := outcomes_delivered Sample.run_relay
  obtain ⟨hopen, hcompleted, -⟩ := hends _ _ _ boards_relay
  have houtcome := (hcompleted 42).mpr (by simp [Sample.relay])
  refine ⟨Sample.run_relay, houtcome, fun hout => ?_⟩
  rw [hopen.mpr hout] at houtcome
  cases houtcome

end OnceProxy.Traffic
