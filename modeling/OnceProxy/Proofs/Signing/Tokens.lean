/-
What a token is worth.

What is checked of a token is put into one structure (`Token.Vouched`), and
a token is accepted just if all of it holds (`verify_ok_iff`). The digest is
not part of a token; it is taken anew of the expiry and the agent that were
read, so that whatever else the octets say cannot matter.

What was issued reads back (`readTriple_toOctets`), as the spelling is one that
reads back and the three fields stand one behind the other. The curve comes in
with what is asked of it for the digests at hand: that the signer is found
from its signature of the one (`Recovers`), or that this signature is not
taken for one of the other (`Binds`).
-/
import OnceProxy.Proofs.Signing.SignedData
import OnceProxy.Proofs.Signing.Transport
import OnceProxy.Proofs.Text.Base64Url

namespace OnceProxy

open Cbor Crypto Secp256k1 Signing Text

/-- The signer's signature of the first digest is not taken for its signature
of another one. -/
def Signer.Binds (s : Signer) (d d' : Digest) : Prop :=
  (s.signDigest d).signerOf d' = .ok s.address → d' = d

instance (s : Signer) (d d' : Digest) : Decidable (s.Binds d d') :=
  inferInstanceAs (Decidable (_ → _))

namespace Token

-- ============================================================= acceptance

/-- What is known of a token that is accepted at a second. -/
structure Vouched (trusted : List Address) (cs : List Char) (second : UInt64)
    (token : Token) : Prop where
  /-- The characters, trimmed, spell octets that begin with the triple; of a
  longer array the decoder takes the first three items. -/
  spelled : ∃ octets rest, Base64Url.decodeChars (trim cs) = some octets
    ∧ readTriple readUInt64 readText readOctets octets
      = some ((token.expireAt, token.agent, token.signature), rest)
  live : second.toNat ≤ token.expireAt.toNat + 10
  /-- The signature is one of this expiry and this agent. -/
  signed : ∃ g a, Signature.ofOctets token.signature = .ok g
    ∧ g.signerOf (keccak256
      (Value.array [.unsigned token.expireAt, .text token.agent]).encode) = .ok a
    ∧ a ∈ trusted

variable {trusted : List Address} {text : String} {now expireAt : UInt64}
  {agent : String} {token : Token} {b : Octets} {s : Signer}

theorem ofOctets?_eq_some :
    ofOctets? b = some token ↔ ∃ rest, readTriple readUInt64 readText readOctets b
      = some ((token.expireAt, token.agent, token.signature), rest) := by
  unfold ofOctets?
  rw [Option.map_eq_some_iff]
  constructor
  · intro ⟨⟨⟨e, a, g⟩, rest⟩, hread, htoken⟩
    cases htoken
    exact ⟨rest, hread⟩
  · intro ⟨rest, hread⟩
    exact ⟨_, hread, rfl⟩

theorem live_iff : ¬addSaturating expireAt permittedDrift < now
    ↔ now.toNat ≤ expireAt.toNat + 10 := by
  rw [addSaturating_lt, Nat.not_lt]
  rfl

/-- A token is accepted just if it is vouched for. -/
theorem verify_ok_iff :
    verify trusted text now = .ok token ↔ Vouched trusted text.toList now token := by
  constructor
  · intro h
    unfold verify at h
    split at h
    · next octets hoctets =>
      split at h
      · next read hread =>
        dsimp only at h
        split at h
        · cases h
        · next hlive =>
          split at h
          · cases h
          · next g hg =>
            split at h
            · cases h
            · next a ha =>
              split at h
              · next htrusted =>
                cases h
                obtain ⟨rest, htriple⟩ := ofOctets?_eq_some.mp hread
                exact ⟨⟨octets, rest, hoctets, htriple⟩, live_iff.mp hlive,
                  g, a, hg, ha, List.contains_iff_mem.mp htrusted⟩
              · cases h
      · cases h
    · cases h
  · intro h
    obtain ⟨octets, rest, hoctets, hread⟩ := h.spelled
    obtain ⟨g, a, hg, ha, htrusted⟩ := h.signed
    have hlive := live_iff.mpr h.live
    have hdigest : g.signerOf (digest token.expireAt token.agent) = .ok a := ha
    unfold verify
    simp only [hoctets, ofOctets?_eq_some.mpr ⟨rest, hread⟩, if_neg hlive, hg,
      hdigest, List.contains_iff_mem, htrusted, if_true]
    rfl

/-- What is not accepted is refused with an error. -/
theorem exists_error_iff : (∃ err, verify trusted text now = .error err)
    ↔ ∀ token, ¬Vouched trusted text.toList now token := by
  constructor
  · intro ⟨err, herr⟩ token hvouched
    rw [verify_ok_iff.mpr hvouched] at herr
    cases herr
  · intro hnone
    cases hverify : verify trusted text now with
    | ok token => exact absurd (verify_ok_iff.mp hverify) (hnone token)
    | error err => exact ⟨err, rfl⟩

-- ============================================================ round trip

/-- The octets of a token read back. -/
theorem readTriple_toOctets (hagent : (Octets.ofText token.agent).length < 2 ^ 64)
    (hsignature : token.signature.length < 2 ^ 64) :
    readTriple readUInt64 readText readOctets token.toOctets
      = some ((token.expireAt, token.agent, token.signature), []) := by
  have hread := readTriple_encode (readUInt64_encode token.expireAt)
    (readText_encode hagent) (readOctets_encode hsignature) []
  rw [List.append_nil] at hread
  exact hread

/-- The token that a signer issues. -/
def issued (s : Signer) (expireAt : UInt64) (agent : String) : Token :=
  ⟨expireAt, agent, (s.signDigest (digest expireAt agent)).toOctets⟩

/-- Of what was issued it is known when it is accepted. -/
theorem vouched_issue (hrecovers : s.Recovers (digest expireAt agent))
    (hagent : (Octets.ofText agent).length < 2 ^ 64) :
    Vouched trusted (issue s expireAt agent).toList now token
      ↔ token = issued s expireAt agent ∧ now.toNat ≤ expireAt.toNat + 10
        ∧ s.address ∈ trusted := by
  have hsignature : (issued s expireAt agent).signature.length < 2 ^ 64 := by
    simp [issued, Signature.toOctets]
  have hspelled : Base64Url.decodeChars (trim (issue s expireAt agent).toList)
      = some (issued s expireAt agent).toOctets := by
    unfold issue Base64Url.encode
    rw [String.toList_ofList, Base64Url.trim_encodeChars]
    exact Base64Url.decodeChars_encodeChars _
  have hread : ofOctets? (issued s expireAt agent).toOctets = some (issued s expireAt agent) :=
    ofOctets?_eq_some.mpr ⟨[], readTriple_toOctets hagent hsignature⟩
  have hback : Signature.ofOctets (issued s expireAt agent).signature
      = .ok (s.signDigest (digest expireAt agent)) :=
    Signature.ofOctets_toOctets _
  constructor
  · intro h
    obtain ⟨octets, rest, hoctets, htriple⟩ := h.spelled
    rw [hspelled] at hoctets
    cases hoctets
    have htoken : token = issued s expireAt agent := by
      have hsame := ofOctets?_eq_some.mpr ⟨rest, htriple⟩
      rw [hread] at hsame
      exact (Option.some.inj hsame).symm
    subst htoken
    obtain ⟨g, a, hg, ha, htrusted⟩ := h.signed
    rw [hback] at hg
    cases hg
    have hsigner : (s.signDigest (digest expireAt agent)).signerOf
        (digest expireAt agent) = .ok a := ha
    rw [hrecovers] at hsigner
    cases hsigner
    exact ⟨rfl, h.live, htrusted⟩
  · rintro ⟨rfl, hlive, htrusted⟩
    obtain ⟨rest, htriple⟩ := ofOctets?_eq_some.mp hread
    exact ⟨⟨_, rest, hspelled, htriple⟩, hlive, _, s.address, hback, hrecovers,
      htrusted⟩

/-- What was issued is accepted, with its expiry and its agent, before the end
of the drift and where the signer is trusted, and refused otherwise. -/
theorem verify_issue (hrecovers : s.Recovers (digest expireAt agent))
    (hagent : (Octets.ofText agent).length < 2 ^ 64) :
    ((∃ token, verify trusted (issue s expireAt agent) now = .ok token
        ∧ token.expireAt = expireAt ∧ token.agent = agent)
      ↔ now.toNat ≤ expireAt.toNat + 10 ∧ s.address ∈ trusted)
    ∧ ((∃ err, verify trusted (issue s expireAt agent) now = .error err)
      ↔ ¬(now.toNat ≤ expireAt.toNat + 10 ∧ s.address ∈ trusted)) := by
  rw [exists_error_iff]
  simp only [verify_ok_iff, vouched_issue hrecovers hagent]
  constructor
  · constructor
    · rintro ⟨token, ⟨-, haccepted⟩, -⟩
      exact haccepted
    · intro haccepted
      exact ⟨_, ⟨rfl, haccepted⟩, rfl, rfl⟩
  · constructor
    · intro hnone haccepted
      exact hnone _ ⟨rfl, haccepted⟩
    · intro hnot token hvouched
      exact hnot hvouched.2

-- ============================================================ separation

/-- Expiry and agent are read back from what is hashed. -/
theorem tokenInput_inj {e f : UInt64} {a b : String}
    (h : tokenInput e a = tokenInput f b) : e = f ∧ a = b := by
  obtain ⟨hexpiry, hagent⟩ := encode_numbered_inj h
  exact ⟨hexpiry, text_encode_inj hagent⟩

/-- What is hashed for a token is never what is hashed for a request. -/
theorem tokenInput_ne_signingInput (e t : UInt64) (a : String) (x : Octets) :
    tokenInput e a ≠ signingInput t x := by
  intro h
  exact text_encode_ne_octets a x (encode_numbered_inj h).2

/-- Tokens and requests are signed apart. What is hashed for a token tells
expiry and agent, and is never what is hashed for a request, so that the two
have one digest only if two strings are at hand that collide. So where the
curve tells the signatures of two digests apart, no verifier accepts a request
with the signature of a token of the address that it expects, and no token is
accepted that has the signature of a request of the only address that is
trusted, unless there is such a collision. -/
theorem tokens_signed_apart (e f t : UInt64) (a b : String) (x : Octets) :
    (tokenInput e a = tokenInput f b ↔ e = f ∧ a = b)
    ∧ tokenInput e a ≠ signingInput t x
    ∧ (digest e a = signingDigest t x →
      Collide (tokenInput e a) (signingInput t x))
    ∧ ∀ s : Signer,
      (s.Binds (digest e a) (signingDigest t x) →
        ∀ (v : Verifier) (env : Envelope) (second : UInt64),
        v.expected = s.address → env.timestamp = t → env.payload = x →
        env.signature = s.signDigest (digest e a) →
        v.checkAt env second = .ok () →
        Collide (tokenInput e a) (signingInput t x))
      ∧ (s.Binds (signingDigest t x) (digest e a) →
        ∀ (text : String) (second : UInt64) (token : Token),
        verify [s.address] text second = .ok token →
        token.expireAt = e → token.agent = a →
        Signature.ofOctets token.signature
          = .ok (s.signDigest (signingDigest t x)) →
        Collide (tokenInput e a) (signingInput t x)) := by
  have hcollide : digest e a = signingDigest t x →
      Collide (tokenInput e a) (signingInput t x) := by
    intro hdigest
    rcases eq_or_collide hdigest with hsame | hcollide
    · exact absurd hsame (tokenInput_ne_signingInput e t a x)
    · exact hcollide
  refine ⟨⟨tokenInput_inj, ?same⟩, tokenInput_ne_signingInput e t a x, hcollide,
    fun s => ⟨?request, ?token⟩⟩
  case same =>
    intro ⟨hexpiry, hagent⟩
    rw [hexpiry, hagent]
  case request =>
    rintro hbinds v env second hexpected rfl rfl hsignature hok
    have htrusts := Verifier.checkAt_ok_iff_trusts.mp hok
    have hsigned : env.signature.signerOf (signingDigest env.timestamp env.payload)
        = .ok v.expected := htrusts.signed
    rw [hsignature, hexpected] at hsigned
    exact hcollide (hbinds hsigned).symm
  case token =>
    rintro hbinds text second token hok rfl rfl hsignature
    obtain ⟨g, y, hg, hy, htrusted⟩ := (verify_ok_iff.mp hok).signed
    rw [hsignature] at hg
    cases hg
    obtain rfl := List.mem_singleton.mp htrusted
    exact hcollide (hbinds hy)

end Token

namespace Signing.Sample

/-- The expiry of a token, and the second of a request. -/
def noon : UInt64 := 43200

theorem recovers_agent : signer.Recovers (Token.digest noon "agent") := by
  decide +kernel

theorem binds_request : signer.Binds (signingDigest noon [1, 2, 3])
    (Token.digest noon "agent") := by
  decide +kernel

theorem binds_agent : signer.Binds (Token.digest noon "agent")
    (signingDigest noon [1, 2, 3]) := by
  decide +kernel

end Signing.Sample

open Signing.Sample in
/-- The signature of a token does not serve for a request with the same number
in front, nor the other way round. -/
theorem Token.tokens_signed_apart_agent :
    signer.Binds (digest noon "agent") (signingDigest noon [1, 2, 3])
    ∧ signer.Binds (signingDigest noon [1, 2, 3]) (digest noon "agent")
    ∧ (⟨signer.address, 60⟩ : Verifier).checkAt
        ⟨[1, 2, 3], signer.signDigest (digest noon "agent"), signer.address, noon⟩
        noon ≠ .ok ()
    ∧ ∀ text second, verify [signer.address] text second ≠ .ok
        ⟨noon, "agent", (signer.signDigest (signingDigest noon [1, 2, 3])).toOctets⟩ := by
  have hapart : ¬Collide (tokenInput noon "agent") (signingInput noon [1, 2, 3]) :=
    fun hcollide => absurd hcollide.2 (by decide +kernel)
  obtain ⟨-, -, -, hsigner⟩ :=
    tokens_signed_apart noon noon noon "agent" "agent" [1, 2, 3]
  obtain ⟨hrequest, htoken⟩ := hsigner signer
  refine ⟨binds_agent, binds_request, fun hok => hapart ?_,
    fun text second hok => hapart ?_⟩
  · exact hrequest binds_agent _ _ noon (by dsimp only) (by dsimp only)
      (by dsimp only) (by dsimp only) hok
  · exact htoken binds_request text second _ hok (by dsimp only) (by dsimp only)
      (Signature.ofOctets_toOctets _)

end OnceProxy
