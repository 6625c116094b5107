/-
What the replay marker tells.

A response is marked where its reply is said to repeat a result, and that is
said of a reply just if it does (`Proofs/Proxy/Repetitions`). A mark that is
set is the only value of its field. But nothing takes the field away that a
response of the origin brings itself, so on what comes from the origin the
marker says what the origin says.
-/
import OnceProxy.Proofs.Proxy.Repetitions
import OnceProxy.Proofs.Server.RequestId

namespace OnceProxy

open Http Proxy Store MemoryStore

namespace Server

-- ============================================================= the marker

/-- The values of the marker in the response for a result, under some id. -/
def marks (x : Replay) (id : FieldValue) : List FieldValue :=
  (taggedResponse (replyResponse (.ok x)) id).headers.values .replayMarker

theorem marks_eq (x : Replay) (id : FieldValue) :
    marks x id = if x.replayed then [.ofText "true"]
      else x.headers.values .replayMarker := by
  have hname : FieldName.replayMarker ≠ .requestId := by decide
  unfold marks taggedResponse replyResponse Replay.response
  dsimp only
  rw [values_tagged_of_ne hname]
  cases x.replayed with
  | true => exact (Headers.values_insert ..).trans (if_pos rfl)
  | false => rfl

end Server

namespace Proxy.System

-- ============================================================ the theorem

/-- The replay marker tells the truth as long as it is the proxy's own. In
every run, a result is said to be a repetition just if it was in the store
before, where an earlier call has put it unless it was there from the start;
and then the response has the mark, once. Every other result, of the caller's
own call, of a flight's leader or of those who follow it, comes from the
origin, and its response has under the marker's name what the origin has sent
there. So where no response of the origin has a field of this name, a response
is marked just if its result was in the store before. -/
theorem marker_tells (wall : Int) {store : MemoryStore}
    (wellStored : store.WellStored) (policies : List Policy)
    {events : List Event} (fits : ∀ e ∈ events, e.Fits) {n : Nat}
    {caller : CallerId} {x : Replay}
    (h : RepliesAt (start wall store policies) events n caller (.ok x))
    (id : FieldValue) :
    (x.replayed = true ↔ IsRepetition (start wall store policies) events n caller)
    ∧ (∀ entry, FromStore (start wall store policies) events n caller entry →
      x = .ofEntry entry true ∧ Server.marks x id = [.ofText "true"]
      ∧ ∃ key, (∃ f, store.held? key = some f ∧ f.sameResult entry = true)
        ∨ ∃ k l response,
          MadeBy (start wall store policies) events n key entry k l response)
    ∧ (¬IsRepetition (start wall store policies) events n caller →
      ∃ response, FromOrigin (start wall store policies) events n caller response
        ∧ x.Mirrors response
        ∧ Server.marks x id = response.headers.cacheable.values .replayMarker)
    ∧ ((∀ call response, .answer call (.ok response) ∈ events →
        response.headers.cacheable.values .replayMarker = []) →
      (Server.marks x id = [.ofText "true"]
        ↔ IsRepetition (start wall store policies) events n caller)
      ∧ (Server.marks x id = []
        ↔ ¬IsRepetition (start wall store policies) events n caller)) := by
  have fresh := fresh_start wall wellStored policies
  have hn : n ≤ events.length := by
    obtain ⟨-, -, -, -, hlt, -⟩ := h
    exact Nat.le_of_lt hlt
  have hmarked : ∀ entry,
      FromStore (start wall store policies) events n caller entry →
      x = .ofEntry entry true ∧ Server.marks x id = [.ofText "true"] := by
    intro entry hentry
    obtain rfl := hentry.reply fresh fits h
    exact ⟨rfl, (Server.marks_eq ..).trans (if_pos rfl)⟩
  have horigin : ¬IsRepetition (start wall store policies) events n caller →
      ∃ response, FromOrigin (start wall store policies) events n caller response
        ∧ x.Mirrors response
        ∧ Server.marks x id
          = response.headers.cacheable.values .replayMarker := by
    intro hnone
    rcases h.cases_source fresh fits with ⟨entry, hentry, -⟩
      | ⟨response, hresponse, hfirst, hmirrors⟩
    · exact absurd ⟨entry, hentry⟩ hnone
    · refine ⟨response, hresponse, hmirrors, ?_⟩
      rw [Server.marks_eq, hfirst]
      exact hmirrors.fields .replayMarker
  refine ⟨⟨fun hrepeat => ?_, fun ⟨entry, hentry⟩ => ?_⟩,
    fun entry hentry => ?_, horigin, fun hsilent => ?_⟩
  · rcases h.cases_source fresh fits with ⟨entry, hentry, -⟩
      | ⟨response, -, hfirst, -⟩
    · exact ⟨entry, hentry⟩
    · rw [hrepeat] at hfirst
      cases hfirst
  · rw [(hmarked entry hentry).1]
    rfl
  · obtain ⟨hx, hmarks⟩ := hmarked entry hentry
    exact ⟨hx, hmarks, hentry.stored fresh fits hn⟩
  · by_cases hrepeats : IsRepetition (start wall store policies) events n caller
    · have ⟨entry, hentry⟩ := hrepeats
      rw [(hmarked entry hentry).2]
      exact ⟨iff_of_true rfl hrepeats,
        iff_of_false (by simp) (not_not_intro hrepeats)⟩
    · -- what the origin has sent is then known to be silent
      obtain ⟨response, hresponse, -, hmarks⟩ := horigin hrepeats
      obtain ⟨call, hanswer⟩ := hresponse.answered
      rw [hmarks, hsilent call response hanswer]
      exact ⟨iff_of_false (by simp) hrepeats, iff_of_true rfl hrepeats⟩

/-- The origin marks its response itself. -/
def boasted : Response :=
  { Sample.created with headers := ⟨[(.replayMarker, .ofText "true")]⟩ }

/-- A request is answered so, and repeated. -/
def echoed : List Event :=
  [.arrive 0 0 Sample.order, .lead 0 0, .answer 0 (.ok boasted), .wake 0,
    .arrive 0 1 Sample.order]

theorem fits_echoed : ∀ e ∈ echoed, e.Fits := by decide +kernel

/-- What its caller is given, and what the next one is. -/
def echo (replayed : Bool) : Replay :=
  ⟨boasted.status, boasted.headers, boasted.body, replayed⟩

theorem record_echoed :
    ((start 0 .empty [Sample.policy]).after? echoed 5).map (fun s =>
      s.replies.map fun r => (r.1, r.2.toOption))
      = some [(0, some (echo false)), (1, some (echo true))] := by
  decide +kernel

/-- The second caller's result was in the store, and is marked once. -/
theorem marker_tells_echoed : ∃ n entry,
    RepliesAt (start 0 .empty [Sample.policy]) echoed n 1 (.ok (echo true))
    ∧ FromStore (start 0 .empty [Sample.policy]) echoed n 1 entry
    ∧ Server.marks (echo true) (.ofText "trace-1") = [.ofText "true"] := by
  obtain ⟨n, -, hreply⟩ := repliesAt_of_record
    (fresh_start 0 wellStored_empty [Sample.policy]) fits_echoed
    (Nat.le_refl 5) record_echoed
    (List.mem_cons_of_mem _ (List.mem_singleton_self _))
  obtain ⟨hreplayed, hstored, -⟩ := marker_tells 0 wellStored_empty
    [Sample.policy] fits_echoed hreply (.ofText "trace-1")
  obtain ⟨entry, hentry⟩ := hreplayed.mp rfl
  exact ⟨n, entry, hreply, hentry, (hstored entry hentry).2.1⟩

/-- The first caller's result was not, and is marked like that. -/
theorem marker_may_lie : ∃ n,
    RepliesAt (start 0 .empty [Sample.policy]) echoed n 0 (.ok (echo false))
    ∧ ¬IsRepetition (start 0 .empty [Sample.policy]) echoed n 0
    ∧ Server.marks (echo false) (.ofText "trace-1") = [.ofText "true"] := by
  have fresh := fresh_start 0 wellStored_empty [Sample.policy]
  obtain ⟨n, -, hreply⟩ := repliesAt_of_record fresh fits_echoed
    (Nat.le_refl 5) record_echoed (List.mem_cons_self ..)
  refine ⟨n, hreply, fun ⟨entry, hentry⟩ => ?_, ?_⟩
  · have hrepeat := congrArg Replay.replayed (hentry.reply fresh fits_echoed hreply)
    cases hrepeat
  · rw [Server.marks_eq]
    rfl

end Proxy.System

end OnceProxy
