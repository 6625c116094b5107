/-
Envelopes in header fields.

The three fields that carry an envelope are texts of visible characters, so
the wire does nothing to them; each text is read back as what was written
(`Proofs/Text/Numerals`). What the map held under their names before is
replaced, and nothing else in it changes.
-/
import OnceProxy.Proofs.Http.Fields
import OnceProxy.Proofs.Http.Transit
import OnceProxy.Proofs.Text.Numerals
import OnceProxy.Signing.Envelope

namespace OnceProxy

open Crypto Http Secp256k1 Signing Text

-- ========================================================= visible texts

theorem IsVisibleText.append {s t : String} (hs : IsVisibleText s)
    (ht : IsVisibleText t) : IsVisibleText (s ++ t) := by
  intro c hc
  rw [String.toList_append] at hc
  rcases List.mem_append.mp hc with hc | hc
  · exact hs c hc
  · exact ht c hc

theorem isVisibleText_mark : IsVisibleText "0x" := by
  have hall : "0x".toList.all isVisible = true := by decide +kernel
  exact List.all_eq_true.mp hall

/-- A hexadecimal digit is visible in either case. -/
theorem isVisible_digit {n : Nat} (h : n < 16) :
    isVisible (Hex.digit n) = true
      ∧ isVisible (Hex.digit n).toUpper = true := by
  have hall : ∀ n < 16, isVisible (Hex.digit n) = true
      ∧ isVisible (Hex.digit n).toUpper = true := by decide
  exact hall n h

theorem isVisibleText_prefixed (b : Octets) :
    IsVisibleText (Hex.prefixed b) := by
  refine isVisibleText_mark.append fun c hc => ?_
  rw [Hex.encode, String.toList_ofList] at hc
  obtain ⟨n, hn, rfl⟩ := Hex.mem_encodeChars hc
  exact (isVisible_digit hn).1

theorem isVisibleText_decimal (n : Nat) :
    IsVisibleText (Decimal.render n) := by
  intro c hc
  rw [Decimal.render, String.toList_ofList] at hc
  have hdigit := Nat.isDigit_of_mem_toDigits (by decide) (by decide) hc
  unfold Char.isDigit at hdigit
  rw [Bool.and_eq_true, decide_eq_true_eq, decide_eq_true_eq] at hdigit
  have hlow : 48 ≤ c.toNat := UInt32.le_iff_toNat_le.mp hdigit.1
  have hhigh : c.toNat ≤ 57 := UInt32.le_iff_toNat_le.mp hdigit.2
  exact isVisible_iff.mpr ⟨by omega, by omega⟩

/-- Checksum case raises some digits and leaves the rest. -/
theorem Crypto.Address.mem_checksumCase {cs : List Char} {b : Octets} {c : Char}
    (h : c ∈ checksumCase cs b) : ∃ d ∈ cs, c = d ∨ c = d.toUpper := by
  have hcase : ∀ (p : Prop) [Decidable p] (d : Char),
      (if p then d.toUpper else d) = d
        ∨ (if p then d.toUpper else d) = d.toUpper := by
    intro p _ d
    split
    · exact .inr rfl
    · exact .inl rfl
  induction cs, b using checksumCase.induct with
  | case1 high low rest o os ih =>
      unfold checksumCase at h
      rcases List.mem_cons.mp h with rfl | h
      · exact ⟨high, List.mem_cons_self .., hcase _ _⟩
      · rcases List.mem_cons.mp h with rfl | h
        · exact ⟨low, List.mem_cons_of_mem _ (List.mem_cons_self ..),
            hcase _ _⟩
        · obtain ⟨d, hd, hc⟩ := ih h
          exact ⟨d, List.mem_cons_of_mem _ (List.mem_cons_of_mem _ hd), hc⟩
  | case2 cs b hshort =>
      refine ⟨c, ?_, .inl rfl⟩
      unfold checksumCase at h
      split at h
      · next high low rest o os =>
        exact absurd rfl (hshort high low rest o os rfl)
      · exact h

theorem isVisibleText_address (a : Address) : IsVisibleText a.render := by
  refine isVisibleText_mark.append fun c hc => ?_
  rw [String.toList_ofList] at hc
  obtain ⟨d, hd, hc⟩ := Address.mem_checksumCase hc
  obtain ⟨n, hn, rfl⟩ := Hex.mem_encodeChars hd
  rcases hc with rfl | rfl
  · exact (isVisible_digit hn).1
  · exact (isVisible_digit hn).2

-- ============================================================ signatures

theorem Crypto.Secp256k1.Signature.ofOctets_toOctets (g : Signature) :
    ofOctets g.toOctets = .ok g := by
  have hlength : g.toOctets.length = 65 := by simp [toOctets]
  have hr : g.toOctets.take 32 = Octets.bigEndian 32 g.r :=
    List.take_left' (Octets.length_bigEndian ..)
  have hdrop : g.toOctets.drop 32
      = Octets.bigEndian 32 g.s ++ [if g.odd then 28 else 27] :=
    List.drop_left' (Octets.length_bigEndian ..)
  have hs : (g.toOctets.drop 32).take 32 = Octets.bigEndian 32 g.s := by
    rw [hdrop]
    exact List.take_left' (Octets.length_bigEndian ..)
  have hlast : g.toOctets.getLastD 0 = if g.odd then 28 else 27 := by
    simp [toOctets, List.getLastD_eq_getLast?]
  have hparity : parity? (if g.odd then 28 else 27) = some g.odd := by
    cases g.odd <;> rfl
  unfold ofOctets
  rw [dif_pos hlength]
  simp only [hlast, hparity, hr, hs, Octets.ofBigEndian_bigEndian g.r_lt,
    Octets.ofBigEndian_bigEndian g.s_lt]

-- ============================================================== envelopes

namespace Envelope

theorem readField_eq {h : Headers} {name : FieldName} {s : String} {a : α}
    {f : String → Option α} (hfirst : h.first? name = some (.ofText s))
    (hs : IsVisibleText s) (hread : f s = some a) :
    readField h name f = .ok a := by
  have htext : fieldText h name = .ok s := by
    unfold fieldText
    rw [hfirst]
    simp only [FieldValue.text?_ofText hs]
  unfold readField
  rw [htext]
  dsimp only [bind, Except.bind]
  rw [hread]
  rfl

theorem values_applyTo (e : Envelope) (h : Headers) (n : FieldName) :
    (e.applyTo h).values n
      = if n = .signature then [.ofText (Hex.prefixed e.signature.toOctets)]
        else if n = .timestamp then
          [.ofText (Decimal.render e.timestamp.toNat)]
        else if n = .signer then [.ofText e.signer.render]
        else h.values n := by
  unfold applyTo
  rw [Headers.values_insert, Headers.values_insert, Headers.values_insert]

/-- The other fields stay as they are. -/
theorem values_applyTo_of_not_mem {e : Envelope} {h : Headers} {n : FieldName}
    (hn : n ∉ FieldName.signatureFields) :
    (e.applyTo h).values n = h.values n := by
  have hcases : n ≠ .signer ∧ n ≠ .timestamp ∧ n ≠ .signature := by
    simpa [FieldName.signatureFields] using hn
  rw [values_applyTo, if_neg hcases.2.2, if_neg hcases.2.1, if_neg hcases.1]

/-- The other fields stay where they are. -/
theorem keep_applyTo (e : Envelope) (h : Headers) {pass : FieldName → Bool}
    (hpass : ∀ n ∈ FieldName.signatureFields, pass n = false) :
    (e.applyTo h).keep pass = h.keep pass := by
  unfold applyTo
  rw [Headers.keep_insert _ _ (hpass .signature (by decide)),
    Headers.keep_insert _ _ (hpass .timestamp (by decide)),
    Headers.keep_insert _ _ (hpass .signer (by decide))]

/-- What an envelope writes into its fields. -/
def fieldTexts (e : Envelope) : List String :=
  [e.signer.render, Decimal.render e.timestamp.toNat,
    Hex.prefixed e.signature.toOctets]

theorem isVisibleText_of_mem_fieldTexts {e : Envelope} {s : String}
    (hs : s ∈ e.fieldTexts) : IsVisibleText s := by
  have hcases : s = e.signer.render ∨ s = Decimal.render e.timestamp.toNat
      ∨ s = Hex.prefixed e.signature.toOctets := by
    simpa [fieldTexts] using hs
  rcases hcases with rfl | rfl | rfl
  · exact isVisibleText_address _
  · exact isVisibleText_decimal _
  · exact isVisibleText_prefixed _

/-- The texts that an envelope writes are read as this envelope, each with the
reader of its field. -/
theorem ofHeaders_of_first {e : Envelope} {h : Headers}
    (hsigner : h.first? .signer = some (.ofText e.signer.render))
    (htimestamp : h.first? .timestamp
      = some (.ofText (Decimal.render e.timestamp.toNat)))
    (hsignature : h.first? .signature
      = some (.ofText (Hex.prefixed e.signature.toOctets)))
    (payload : Octets) : ofHeaders h payload = .ok { e with payload } := by
  have hsigner := readField_eq (f := Address.parse?) hsigner
    (isVisibleText_address e.signer) (Address.parse?_render e.signer)
  have htimestamp := readField_eq (f := Decimal.parseUInt64) htimestamp
    (isVisibleText_decimal _) (Decimal.parseUInt64_render e.timestamp)
  have hsignature := readField_eq (f := signatureText)
    (a := e.signature.toOctets) hsignature (isVisibleText_prefixed _) (by
      unfold signatureText Hex.prefixed
      rw [Hex.encode, Hex.stripOne_prefixed, Hex.decodeChars_encodeChars])
  unfold ofHeaders
  rw [hsigner, htimestamp, hsignature]
  dsimp only [bind, Except.bind]
  rw [Signature.ofOctets_toOctets]
  rfl

/-- The fields of an envelope are read back, and the wire does not matter. -/
theorem ofHeaders_onWire_applyTo (e : Envelope) (h : Headers)
    (payload : Octets) :
    ofHeaders (e.applyTo h).onWire payload = .ok { e with payload } := by
  have hfirst : ∀ {n : FieldName} {s : String},
      (e.applyTo h).values n = [.ofText s] → IsVisibleText s →
      (e.applyTo h).onWire.first? n = some (.ofText s) := by
    intro n s hn hs
    unfold Headers.first?
    rw [Headers.values_onWire, hn]
    exact congrArg some (FieldValue.visible_ofText hs).trimmed
  exact ofHeaders_of_first
    (hfirst (by rw [values_applyTo]; rfl) (isVisibleText_address _))
    (hfirst (by rw [values_applyTo]; rfl) (isVisibleText_decimal _))
    (hfirst (by rw [values_applyTo]; rfl) (isVisibleText_prefixed _)) payload

/-- An envelope travels in a header map, whatever the map held before. The
three texts that it writes are values that a field can have, so writing never
fails, and each is then the only value of its name. What is read back around
the same payload is this envelope. The fields of all other names keep their
values, and their order among each other. -/
theorem ofHeaders_applyTo (e : Envelope) (h : Headers) :
    ofHeaders (e.applyTo h) e.payload = .ok e
      ∧ (∀ s ∈ e.fieldTexts,
        FieldValue.ofOctets? (Octets.ofText s) = some (.ofText s))
      ∧ FieldName.signatureFields.map (e.applyTo h).values
        = e.fieldTexts.map (fun s => [.ofText s])
      ∧ (∀ n ∉ FieldName.signatureFields,
        (e.applyTo h).values n = h.values n)
      ∧ (e.applyTo h).keep (fun n => !FieldName.signatureFields.contains n)
        = h.keep fun n => !FieldName.signatureFields.contains n := by
  have hvalues : FieldName.signatureFields.map (e.applyTo h).values
      = e.fieldTexts.map fun s => [.ofText s] := by
    unfold FieldName.signatureFields
    rw [List.map_cons, List.map_cons, List.map_singleton, values_applyTo,
      values_applyTo, values_applyTo]
    rfl
  have hread : ofHeaders (e.applyTo h) e.payload = .ok e := by
    apply ofHeaders_of_first
    · rw [Headers.first?, values_applyTo]
      rfl
    · rw [Headers.first?, values_applyTo]
      rfl
    · rw [Headers.first?, values_applyTo]
      rfl
  refine ⟨hread, ?_, hvalues, fun n hn => values_applyTo_of_not_mem hn, ?_⟩
  · intro s hs
    have hvisible := isVisibleText_of_mem_fieldTexts hs
    rw [hvisible.ofText, ← FieldValue.octets_ofText hvisible]
    exact FieldValue.ofOctets?_octets _
  · apply keep_applyTo
    intro n hn
    rw [Bool.not_eq_false', List.contains_iff_mem]
    exact hn

/-- Fields in disorder, with two signatures and no second among them. -/
def crowded : Headers :=
  ⟨[(.signature, .ofText "0x01"), (.requestId, .ofText "trace-1"),
    (.signer, .ofText "0x00"), (.signature, .ofText "0x02"),
    (.contentType, .ofText "text/plain")]⟩

/-- An envelope of the last second, with the greatest numbers. -/
def farthest : Envelope :=
  ⟨[0], ⟨wordBound - 1, wordBound - 1, true, by decide, by decide⟩,
    ⟨List.replicate 20 0xff, rfl⟩, UInt64.ofNat maxUInt64⟩

/-- It gets through them, and the body's type is as it was. -/
theorem ofHeaders_applyTo_crowded :
    ofHeaders (farthest.applyTo crowded) [0] = .ok farthest
      ∧ (farthest.applyTo crowded).values .contentType
        = [.ofText "text/plain"] := by
  obtain ⟨hread, -, -, hothers, -⟩ := ofHeaders_applyTo farthest crowded
  exact ⟨hread, (hothers .contentType (by decide)).trans (by decide)⟩

end Envelope

end OnceProxy
