/-
When a verifier accepts an envelope.

Its sums stop at the greatest number, but a sum that is stopped there is not
below any instant either, so each comparison comes out as in exact
arithmetic.
-/
import Mathlib.Data.UInt
import OnceProxy.Signing.Envelope

namespace OnceProxy

open Cbor Crypto Secp256k1 Signing

namespace Signing

/-- The second is not later than the age behind the timestamp, and not
earlier than the drift before it. -/
def InWindow (timestamp maxAge second : UInt64) : Prop :=
  second.toNat ≤ timestamp.toNat + maxAge.toNat
    ∧ timestamp.toNat ≤ second.toNat + permittedDrift.toNat

instance (timestamp maxAge second : UInt64) :
    Decidable (InWindow timestamp maxAge second) :=
  inferInstanceAs (Decidable (_ ∧ _))

theorem addSaturating_lt {a b c : UInt64} :
    addSaturating a b < c ↔ a.toNat + b.toNat < c.toNat := by
  have hc := c.toNat_lt
  have hmax : maxUInt64 = 2 ^ 64 - 1 := rfl
  rw [UInt64.lt_iff_toNat_lt, toNat_addSaturating]
  omega

end Signing

/-- The signer is found from its own signature of the digest. -/
def Signer.Recovers (s : Signer) (d : Digest) : Prop :=
  (s.signDigest d).signerOf d = .ok s.address

instance (s : Signer) (d : Digest) : Decidable (s.Recovers d) :=
  inferInstanceAs (Decidable (_ = _))

theorem Verifier.checkAt_ok_iff {v : Verifier} {e : Envelope}
    {second : UInt64} :
    v.checkAt e second = .ok ()
      ↔ InWindow e.timestamp v.maxAge second ∧ e.signer = v.expected
        ∧ e.signature.signerOf (signingDigest e.timestamp e.payload)
          = .ok v.expected := by
  have hold : ¬addSaturating e.timestamp v.maxAge < second
      ↔ second.toNat ≤ e.timestamp.toNat + v.maxAge.toNat := by
    rw [addSaturating_lt, Nat.not_lt]
  have hahead : ¬addSaturating second permittedDrift < e.timestamp
      ↔ e.timestamp.toNat ≤ second.toNat + permittedDrift.toNat := by
    rw [addSaturating_lt, Nat.not_lt]
  unfold InWindow checkAt
  rw [← hold, ← hahead]
  split
  · next hexpired => simp [hexpired]
  · next hlive =>
    split
    · next hfuture => simp [hfuture]
    · next hpast =>
      split
      · next hother => simp [hother]
      · next hsigner =>
        rw [Decidable.not_not] at hsigner
        split
        · next fault hfault => simp [hfault]
        · next actual hactual =>
          split
          · next hwrong => simp [hactual, hwrong]
          · next hright =>
            rw [Decidable.not_not] at hright
            simp [hlive, hpast, hsigner, hactual, hright]

/-- An envelope is called expired for its age only. -/
theorem Verifier.checkAt_expired_iff {v : Verifier} {e : Envelope}
    {second : UInt64} :
    v.checkAt e second = .error (.expired e.timestamp)
      ↔ e.timestamp.toNat + v.maxAge.toNat < second.toNat := by
  rw [← addSaturating_lt]
  unfold checkAt
  split
  · next hexpired => simp [hexpired]
  · next hlive =>
    refine iff_of_false (fun herror => ?_) hlive
    repeat' split at herror
    all_goals cases herror

/-- What is ahead of the clock has not expired, so it is called that. -/
theorem Verifier.checkAt_fromFuture_iff {v : Verifier} {e : Envelope}
    {second : UInt64} :
    v.checkAt e second = .error (.fromFuture e.timestamp)
      ↔ second.toNat + permittedDrift.toNat < e.timestamp.toNat := by
  have hnever : addSaturating e.timestamp v.maxAge < second →
      ¬addSaturating second permittedDrift < e.timestamp := by
    rw [addSaturating_lt, addSaturating_lt]
    omega
  rw [← addSaturating_lt]
  unfold checkAt
  split
  · next hexpired =>
    exact iff_of_false (fun herror => by cases herror) (hnever hexpired)
  · split
    · next hfuture => simp [hfuture]
    · next hpast =>
      refine iff_of_false (fun herror => ?_) hpast
      repeat' split at herror
      all_goals cases herror

/-- What a receiver knows of an envelope that it accepts at a second, in whole
numbers. -/
structure Verifier.Trusts (v : Verifier) (e : Envelope) (second : UInt64) :
    Prop where
  young : second.toNat ≤ e.timestamp.toNat + v.maxAge.toNat
  past : e.timestamp.toNat ≤ second.toNat + 10
  claimed : e.signer = v.expected
  signed : e.signature.signerOf (keccak256
    (Value.array [.unsigned e.timestamp, .octets e.payload]).encode)
      = .ok v.expected

theorem Verifier.checkAt_ok_iff_trusts {v : Verifier} {e : Envelope}
    {second : UInt64} : v.checkAt e second = .ok () ↔ v.Trusts e second := by
  rw [checkAt_ok_iff]
  constructor
  · intro ⟨⟨hyoung, hpast⟩, hclaimed, hsigned⟩
    exact ⟨hyoung, hpast, hclaimed, hsigned⟩
  · intro ⟨hyoung, hpast, hclaimed, hsigned⟩
    exact ⟨⟨hyoung, hpast⟩, hclaimed, hsigned⟩

/-- A request is judged by the envelope that its fields carry. -/
theorem Verifier.checkRequest_of_headers {v : Verifier} {method : Http.Method}
    {path : String} {key : Option String} {h : Http.Headers} {body : Octets}
    {second : UInt64} {e : Envelope}
    (he : Envelope.ofHeaders h (outboundPayload method path key body) = .ok e) :
    v.checkRequest method path key h body second = v.checkAt e second := by
  unfold checkRequest
  rw [he]
  rfl

-- ============================================================ the theorem

/-- Acceptance is exact at both ends of the clock. Whatever the envelope, the
expected address, the age and the second, an envelope is accepted just if it
is trusted, and refused with an error otherwise; the error calls it expired
just if it is too old, and from the future just if it is too far ahead. So
what a signer signs, of any payload and at any second, is accepted by who
expects this signer throughout the window and at no second outside, if the
signer is found from its signature at all. -/
theorem Verifier.checkAt_exact (v : Verifier) (second : UInt64) :
    (∀ e, (v.checkAt e second = .ok () ↔ v.Trusts e second)
      ∧ ((∃ err, v.checkAt e second = .error err) ↔ ¬v.Trusts e second)
      ∧ (v.checkAt e second = .error (.expired e.timestamp)
        ↔ e.timestamp.toNat + v.maxAge.toNat < second.toNat)
      ∧ (v.checkAt e second = .error (.fromFuture e.timestamp)
        ↔ second.toNat + 10 < e.timestamp.toNat))
    ∧ ∀ (s : Signer) (payload : Octets) (timestamp : UInt64),
      v.expected = s.address → s.Recovers (signingDigest timestamp payload) →
      (v.checkAt (s.signAt payload timestamp) second = .ok ()
        ↔ second.toNat ≤ timestamp.toNat + v.maxAge.toNat
          ∧ timestamp.toNat ≤ second.toNat + 10) := by
  constructor
  · intro e
    refine ⟨checkAt_ok_iff_trusts, ?_, checkAt_expired_iff,
      checkAt_fromFuture_iff⟩
    rw [← checkAt_ok_iff_trusts]
    cases v.checkAt e second with
    | ok u => simp
    | error err => simp
  · intro s payload timestamp hexpected hrecovers
    have hsigned : (s.signAt payload timestamp).signature.signerOf
        (signingDigest timestamp payload) = .ok v.expected := by
      rw [hexpected]
      unfold Signer.signAt
      dsimp only
      exact hrecovers
    rw [checkAt_ok_iff_trusts]
    constructor
    · intro htrusts
      exact ⟨htrusts.young, htrusts.past⟩
    · intro ⟨hyoung, hpast⟩
      exact ⟨hyoung, hpast, hexpected.symm, hsigned⟩

namespace Signing.Sample

/-- The signer of a small key. -/
def signer : Signer := .ofKey ⟨7, by decide, by decide⟩

/-- Six seconds before the clock's end. -/
def lastMinute : UInt64 := UInt64.ofNat (2 ^ 64 - 6)

theorem recovers_lastMinute :
    signer.Recovers (signingDigest lastMinute [1, 2, 3]) := by
  decide +kernel

end Signing.Sample

open Signing.Sample in
/-- An age that reaches past the end of the clock admits its last second, and
the drift starts where it would in the middle. -/
theorem Verifier.checkAt_exact_lastMinute :
    (⟨signer.address, 60⟩ : Verifier).checkAt
        (signer.signAt [1, 2, 3] lastMinute) (lastMinute + 5) = .ok ()
      ∧ (⟨signer.address, 60⟩ : Verifier).checkAt
        (signer.signAt [1, 2, 3] lastMinute) (lastMinute - 10) = .ok ()
      ∧ (⟨signer.address, 60⟩ : Verifier).checkAt
        (signer.signAt [1, 2, 3] lastMinute) (lastMinute - 11)
        = .error (.fromFuture lastMinute) := by
  have hwindow := fun second => (checkAt_exact ⟨signer.address, 60⟩ second).2
    signer [1, 2, 3] lastMinute (by dsimp only) recovers_lastMinute
  have hahead := fun second => ((checkAt_exact ⟨signer.address, 60⟩ second).1
    (signer.signAt [1, 2, 3] lastMinute)).2.2.2
  refine ⟨(hwindow _).mpr ?_, (hwindow _).mpr ?_, (hahead _).mpr ?_⟩
  · decide
  · decide
  · show (lastMinute - 11).toNat + 10 < lastMinute.toNat
    decide

end OnceProxy
