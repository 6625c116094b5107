/-
Who gets through the gate.

The gate reads one header field and nothing else of a request. It opens for a
token that is vouched for (`AuthPolicy.Admits`) and answers everything else
itself, so a request without such a token leaves the proxy as it is. The only
thing in front of the gate is the bound on the time of a request; no bound of
an accepted configuration is zero, and no reload changes it
(`requestBound_run`), so at the gate a request always arrives.
-/
import OnceProxy.Proofs.Server.LastGood
import OnceProxy.Proofs.Server.RequestId
import OnceProxy.Proofs.Signing.Tokens

namespace OnceProxy

open Crypto Http

namespace AuthPolicy

variable {p : AuthPolicy} {h : Headers} {second : UInt64} {token : Token}

/-- The first field of its name holds, behind its word, a token that is
vouched for. -/
def Admits (p : AuthPolicy) (h : Headers) (second : UInt64) (token : Token) : Prop :=
  ∃ v text, (h.values .proxyAuthorization).head? = some v
    ∧ v.text? = some ("Bearer " ++ text)
    ∧ token.Vouched p.trusted text.toList second

-- ================================================================ the gate

theorem eq_bearer_append {written text : String} :
    written.toList.take bearer.length = bearer
        ∧ String.ofList (written.toList.drop bearer.length) = text
      ↔ written = "Bearer " ++ text := by
  constructor
  · intro ⟨hfront, hback⟩
    rw [← String.ofList_toList (s := written), ← hback,
      ← List.take_append_drop bearer.length written.toList, hfront]
    exact String.ofList_append ..
  · intro hwritten
    rw [hwritten, String.toList_append]
    constructor
    · exact List.take_left
    · rw [show "Bearer ".toList = bearer from rfl, List.drop_left]
      exact String.ofList_toList

theorem tokenOf?_eq_some {text : String} :
    tokenOf? h = some text ↔ ∃ v, (h.values .proxyAuthorization).head? = some v
      ∧ v.text? = some ("Bearer " ++ text) := by
  unfold tokenOf? Headers.first?
  cases hfirst : (h.values .proxyAuthorization).head? with
  | none => simp
  | some v =>
  cases hwritten : v.text? with
  | none => simp [hwritten]
  | some written =>
      simp [hwritten, ← eq_bearer_append]

/-- Where tokens are required, a request passes with a token that is vouched
for, and is refused for want of authority otherwise. -/
theorem authorize_cases (required : p.enabled = true) (h : Headers) (second : UInt64) :
    (∃ token, p.authorize h second = .ok (some token) ∧ p.Admits h second token)
      ∨ ((∃ fault, p.authorize h second = .error (.unauthorized fault))
        ∧ ∀ token, ¬p.Admits h second token) := by
  unfold authorize
  rw [required]
  cases htext : tokenOf? h with
  | none =>
      refine .inr ⟨⟨.missingToken, rfl⟩, ?_⟩
      rintro token ⟨v, text, hfirst, hwritten, -⟩
      rw [tokenOf?_eq_some.mpr ⟨v, hfirst, hwritten⟩] at htext
      cases htext
  | some text =>
      cases hverify : Token.verify p.trusted text second with
      | ok token =>
          obtain ⟨v, hfirst, hwritten⟩ := tokenOf?_eq_some.mp htext
          refine .inl ⟨token, ?_, v, text, hfirst, hwritten, Token.verify_ok_iff.mp hverify⟩
          simp [hverify]
      | error err =>
          refine .inr ⟨⟨.badToken err, by simp [hverify]⟩, ?_⟩
          intro token ⟨v, other, hfirst, hwritten, hvouched⟩
          rw [tokenOf?_eq_some.mpr ⟨v, hfirst, hwritten⟩] at htext
          cases htext
          exact Token.exists_error_iff.mp ⟨err, hverify⟩ token hvouched

/-- The id of a request is of another field than its token. -/
theorem admits_tagged {id : FieldValue} :
    p.Admits (Server.tagged h id) second token ↔ p.Admits h second token := by
  unfold Admits
  rw [Server.values_tagged_of_ne (by decide)]

end AuthPolicy

namespace Server

open Config Proxy Store

namespace Service

variable {s : Service} {now : UInt64} {id : FieldValue} {r : Inbound} {isComplete : Bool}

/-- What the proxy gets to see has a token that is vouched for. -/
theorem admits_of_admitted (required : s.auth.enabled = true) {q : Incoming}
    (h : s.admission now id r isComplete = .admitted q) :
    ∃ token, s.auth.Admits r.headers (now / 1000) token := by
  unfold admission admitTagged at h
  split at h
  · cases h
  · rcases AuthPolicy.authorize_cases required (tagged r.headers id) (now / 1000)
      with ⟨token, -, hadmits⟩ | ⟨⟨fault, hrefused⟩, -⟩
    · exact ⟨token, AuthPolicy.admits_tagged.mp hadmits⟩
    · simp only [hrefused] at h
      cases h

/-- A request without such a token is answered at the gate. -/
theorem refused_of_not_admits (required : s.auth.enabled = true)
    (timed : s.requestBound ≠ 0)
    (hnone : ∀ token, ¬s.auth.Admits r.headers (now / 1000) token)
    (id : FieldValue) (isComplete : Bool) :
    ∃ fault, s.admission now id r isComplete
      = .answered (ProxyError.unauthorized fault).response := by
  unfold admission admitTagged
  rw [if_neg timed]
  rcases AuthPolicy.authorize_cases required (tagged r.headers id) (now / 1000)
    with ⟨token, -, hadmits⟩ | ⟨⟨fault, hrefused⟩, -⟩
  · exact absurd (AuthPolicy.admits_tagged.mp hadmits) (hnone token)
  · refine ⟨fault, ?_⟩
    simp only [hrefused]

end Service

namespace Deployment

variable {d d' d₀ : Deployment} {e : DeploymentEvent} {events : List DeploymentEvent}
  {surroundings : Surroundings} {contents : Octets} {c : ProxyConfig} {wall : Int}

-- =============================================================== the bound

/-- A reload changes the gate of the service only. -/
theorem Change.requestBound (h : Change d e d') :
    d'.service.requestBound = d.service.requestBound := by
  cases h with
  | loaded | dropped | exchanged | stored | turnedAway | admitted | worked => rfl

theorem requestBound_run (h : d₀.run events = some d) :
    d.service.requestBound = d₀.service.requestBound :=
  run_induction (P := fun _ d => d.service.requestBound = d₀.service.requestBound) h rfl
    fun _ _ _ _ _ hv change => change.requestBound.trans hv

/-- An accepted configuration leaves some time for a request. -/
theorem requestSecs_pos (accepted : Config.validate c = .ok c) :
    0 < c.timeouts.requestSecs.toNat := by
  have hcheck : Config.checkPositive "timeouts.request_secs" c.timeouts.requestSecs = [] := by
    have hnone := (Config.validate_eq_ok.mp accepted).1
    simp only [ProxyConfig.problems, List.append_eq_nil_iff] at hnone
    simp only [hnone]
  exact Config.checkPositive_eq_nil.mp hcheck

theorem requestBound_start (starts : start surroundings contents c wall = .ok d) :
    d.service.requestBound = c.timeouts.requestSecs.toNat * 1000 := by
  obtain ⟨started, hstarted, rfl⟩ := started_of_start starts
  obtain ⟨signer, keyField, -, -, hservice⟩ := start_eq_ok hstarted
  rw [hservice]
  rfl

/-- Wherever a server that was started from an accepted configuration has got
to, there is some time for a request. -/
theorem timed_run (accepted : Config.validate c = .ok c)
    (starts : start surroundings contents c wall = .ok d₀)
    (h : d₀.run events = some d) : d.service.requestBound ≠ 0 := by
  have hpos := requestSecs_pos accepted
  rw [requestBound_run h, requestBound_start starts]
  omega

-- ============================================================ the theorem

/-- Tokens from one end to the other. What a signer issues is accepted, with
its expiry and its agent, just as long as the drift behind the expiry lasts and
where the signer's address is trusted, and refused with an error otherwise, if
the signer is found from its signature at all. And wherever a server has got
to that was started from an accepted configuration and requires tokens now, the
proxy sees a request only if the first field for a token holds, behind its
word, one that is vouched for; any other request is answered with 401 and
changes nothing. -/
theorem tokens_end_to_end :
    (∀ (s : Signer) (trusted : List Address) (expireAt now : UInt64) (agent : String),
      s.Recovers (Token.digest expireAt agent) →
      (Octets.ofText agent).length < 2 ^ 64 →
      ((∃ token, Token.verify trusted (Token.issue s expireAt agent) now = .ok token
          ∧ token.expireAt = expireAt ∧ token.agent = agent)
        ↔ now.toNat ≤ expireAt.toNat + 10 ∧ s.address ∈ trusted)
      ∧ ((∃ err, Token.verify trusted (Token.issue s expireAt agent) now = .error err)
        ↔ ¬(now.toNat ≤ expireAt.toNat + 10 ∧ s.address ∈ trusted)))
    ∧ ∀ (surroundings : Surroundings) (contents : Octets) (c : ProxyConfig) (wall : Int)
      (events : List DeploymentEvent) (d₀ d : Deployment),
      Config.validate c = .ok c → start surroundings contents c wall = .ok d₀ →
      d₀.run events = some d → d.service.auth.enabled = true →
      ∀ caller id r isComplete,
      (∀ q, d.service.admission d.system.now id r isComplete = .admitted q →
        ∃ token, d.service.auth.Admits r.headers (d.system.now / 1000) token)
      ∧ ((∀ token, ¬d.service.auth.Admits r.headers (d.system.now / 1000) token) →
        (∃ response, d.service.admission d.system.now id r isComplete = .answered response
          ∧ response.status.code = 401)
        ∧ d.step (.request caller id r isComplete) = some d) := by
  constructor
  · intro s trusted expireAt now agent hrecovers hagent
    exact Token.verify_issue hrecovers hagent
  · intro surroundings contents c wall events d₀ d accepted starts h required
      caller id r isComplete
    refine ⟨fun q hadmitted => Service.admits_of_admitted required hadmitted,
      fun hnone => ?_⟩
    obtain ⟨fault, hanswered⟩ := Service.refused_of_not_admits required
      (timed_run accepted starts h) hnone id isComplete
    refine ⟨⟨_, hanswered, rfl⟩, ?_⟩
    simp only [step, hanswered]

end Deployment

namespace Sample

/-- The text of a configuration that trusts one agent. -/
def guardedText : String :=
  "[signing]\nprivate_key = \"" ++ keyText ++ "\"\n[auth]\nenabled = true\n"
    ++ "trusted_agents = [\"0xd41c057fd1c78805aac12b0a94a405c0461a6fbb\"]\n"

/-- The configuration is put in force. -/
def guarded : List DeploymentEvent :=
  [.file (.written (.ofText guardedText)), .take, .finish]

/-- A request with a token. -/
def shown (text : String) : Inbound :=
  Origin.Sample.inbound [(.proxyAuthorization, .ofText ("Bearer " ++ text))]

/-- The token of the agent, for noon. -/
def pass : String := Token.issue Signing.Sample.signer Signing.Sample.noon "agent"

end Sample

open Sample Signing.Sample in
/-- From now on the agent needs its token, which serves until ten seconds past
noon. -/
theorem Deployment.tokens_end_to_end_guarded :
    (∃ token, Token.verify [signer.address] pass (noon + 10) = .ok token
      ∧ token.expireAt = noon ∧ token.agent = "agent")
    ∧ (∃ err, Token.verify [signer.address] pass (noon + 11) = .error err)
    ∧ ∃ d₀ d q token, Deployment.start (machine none) [] keyed 0 = .ok d₀
    ∧ d₀.run guarded = some d ∧ d.service.auth.enabled = true
    ∧ d.service.admission d.system.now (.ofText "1") (shown pass) true = .admitted q
    ∧ d.service.auth.Admits (shown pass).headers (d.system.now / 1000) token
    ∧ d.step (.request 0 (.ofText "2") (Origin.Sample.inbound []) true) = some d := by
  have hview : (Deployment.start (machine none) [] keyed 0).toOption.bind
      (fun d₀ => (d₀.run guarded).map fun d => (d.service.auth.enabled,
        match d.service.admission d.system.now (.ofText "1") (shown pass) true with
        | .admitted _ => true
        | _ => false)) = some (true, true) := by
    decide +kernel
  obtain ⟨d₀, hd₀, hrun⟩ := Option.bind_eq_some_iff.mp hview
  obtain ⟨d, hd, hfacts⟩ := Option.map_eq_some_iff.mp hrun
  obtain ⟨henabled, hpassed⟩ := Prod.mk.inj hfacts
  have hstart := eq_ok_of_toOption hd₀
  have haccepted : Config.validate keyed = .ok keyed :=
    Config.validate_eq_ok.mpr ⟨by decide +kernel, rfl⟩
  obtain ⟨htokens, hgate⟩ := Deployment.tokens_end_to_end
  have hissued := fun now => htokens signer [signer.address] noon now "agent"
    recovers_agent (by decide)
  have hrequest := hgate _ _ _ _ _ d₀ d haccepted hstart hd henabled 0
  obtain ⟨q, hq⟩ : ∃ q,
      d.service.admission d.system.now (.ofText "1") (shown pass) true = .admitted q := by
    split at hpassed
    · next q hq => exact ⟨q, hq⟩
    · cases hpassed
  obtain ⟨token, hadmits⟩ := (hrequest _ _ _).1 q hq
  have hnone : ∀ token, ¬d.service.auth.Admits (Origin.Sample.inbound []).headers
      (d.system.now / 1000) token := by
    rintro token ⟨v, text, hfirst, -⟩
    have hvalues : ((Origin.Sample.inbound []).headers.values
        .proxyAuthorization).head? = none := by
      decide +kernel
    rw [hvalues] at hfirst
    cases hfirst
  exact ⟨(hissued _).1.mpr ⟨by decide, List.mem_singleton_self _⟩,
    (hissued _).2.mpr (fun haccepted => absurd haccepted.1 (by decide)),
    d₀, d, q, token, hstart, hd, henabled, hq, hadmits, ((hrequest _ _ _).2 hnone).2⟩

end Server

end OnceProxy
