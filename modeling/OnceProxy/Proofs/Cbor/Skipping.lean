/-
Passing over a value of any shape: exactly its form is taken off the front,
whatever octets follow, if its nesting is within the budget.

The induction is on the value. Around a leaf nothing has to be known of the
budget, so the lemmas of the leaves speak of `skipWith` under any budget.
An array or a map spends one unit and passes over its contents one after the
other, each of them by the induction hypothesis, which is why that has to
hold whatever follows (`readMany_flatMap`).
-/
import OnceProxy.Proofs.Cbor.ReadBack

namespace OnceProxy.Cbor

namespace Value

-- ============================================================== lengths

/-- The lengths in a value are numbers of 64 bits, as those of everything
that is held in memory. -/
inductive Fits : Value → Prop where
  | unsigned (n : UInt64) : Fits (.unsigned n)
  | negative (n : UInt64) : Fits (.negative n)
  | octets {b : Octets} (length : b.length < 2 ^ 64) : Fits (.octets b)
  | text {s : String} (length : (Octets.ofText s).length < 2 ^ 64) :
      Fits (.text s)
  | array {items : List Value} (count : items.length < 2 ^ 64)
      (each : ∀ v ∈ items, Fits v) : Fits (.array items)
  | map {entries : List (Value × Value)} (count : entries.length < 2 ^ 64)
      (keys : ∀ p ∈ entries, Fits p.1) (values : ∀ p ∈ entries, Fits p.2) :
      Fits (.map entries)
  | bool (b : Bool) : Fits (.bool b)
  | null : Fits .null

-- ============================================================= contents

theorem encodeEntries_eq (entries : List (Value × Value)) :
    encodeEntries entries
      = entries.flatMap fun p => encode p.1 ++ encode p.2 := by
  induction entries with
  | nil => rfl
  | cons p entries ih => simp [encodeEntries, ih]

/-- No item is nested deeper than all of them. -/
theorem depth_le_depthItems {items : List Value} {v : Value}
    (h : v ∈ items) : v.depth ≤ depthItems items := by
  induction items with
  | nil => cases h
  | cons w items ih =>
      rw [depthItems]
      rcases List.mem_cons.mp h with rfl | h'
      · omega
      · have := ih h'
        omega

/-- No key and no value is nested deeper than all of them. -/
theorem depth_le_depthEntries {entries : List (Value × Value)}
    {p : Value × Value} (h : p ∈ entries) :
    p.1.depth ≤ depthEntries entries ∧ p.2.depth ≤ depthEntries entries := by
  induction entries with
  | nil => cases h
  | cons q entries ih =>
      rw [depthEntries]
      rcases List.mem_cons.mp h with rfl | h'
      · omega
      · have := ih h'
        omega

end Value

-- =============================================================== leaves

section Leaves

variable (inside? : Option (Octets → Option Octets)) (rest : Octets)

theorem skipWith_unsigned (n : UInt64) :
    skipWith inside? ((Value.unsigned n).encode ++ rest) = some rest := by
  have hhead : Header.read (head 0 n.toNat ++ rest)
      = some (.unsigned n.toNat, rest) :=
    read_head (by decide) n.toNat_lt (fun _ => rfl) rest
  simp [skipWith, Value.encode, hhead]

theorem skipWith_negative (n : UInt64) :
    skipWith inside? ((Value.negative n).encode ++ rest) = some rest := by
  have hhead : Header.read (head 1 n.toNat ++ rest)
      = some (.negative n.toNat, rest) :=
    read_head (by decide) n.toNat_lt (fun _ => rfl) rest
  simp [skipWith, Value.encode, hhead]

theorem skipWith_octets {b : Octets} (hb : b.length < 2 ^ 64) :
    skipWith inside? ((Value.octets b).encode ++ rest) = some rest := by
  have hhead : Header.read (head 2 b.length ++ (b ++ rest))
      = some (.octets (some b.length), b ++ rest) :=
    read_head (by decide) hb (fun _ => rfl) _
  simp [skipWith, Value.encode, hhead, readOctetsBody, readString,
    take?_append]

theorem skipWith_text {s : String}
    (hs : (Octets.ofText s).length < 2 ^ 64) :
    skipWith inside? ((Value.text s).encode ++ rest) = some rest := by
  have hhead : Header.read
      (head 3 (Octets.ofText s).length ++ (Octets.ofText s ++ rest))
        = some (.text (some (Octets.ofText s).length),
          Octets.ofText s ++ rest) :=
    read_head (by decide) hs (fun _ => rfl) _
  simp [skipWith, Value.encode, hhead, readTextBody, readString,
    take?_append, Octets.toText?_ofText]

theorem skipWith_bool (b : Bool) :
    skipWith inside? ((Value.bool b).encode ++ rest) = some rest := by
  cases b <;> rfl

theorem skipWith_null :
    skipWith inside? (Value.null.encode ++ rest) = some rest := rfl

end Leaves

/-- A budget is some budget. -/
theorem skip_of_skipWith {b rest : Octets}
    (h : ∀ inside?, skipWith inside? b = some rest) (depth : Nat) :
    skip depth b = some rest := by
  cases depth <;> exact h _

-- ============================================================ containers

theorem skip_array {depth : Nat} {items : List Value}
    (count : items.length < 2 ^ 64)
    (h : ∀ v ∈ items, ∀ rest, skip depth (v.encode ++ rest) = some rest)
    (rest : Octets) :
    skip (depth + 1) ((Value.array items).encode ++ rest) = some rest := by
  -- what is read of an item is that it was there
  let item : Reader Unit := fun b => (skip depth b).map ((), ·)
  have hitem : ∀ v ∈ items, ∀ rest,
      item (v.encode ++ rest) = some ((), rest) := by
    intro v hv rest
    simp [item, h v hv rest]
  have hhead : Header.read (head 4 items.length
      ++ (items.flatMap Value.encode ++ rest))
        = some (.array (some items.length), _) :=
    read_head (by decide) count (fun _ => rfl) _
  rw [skip, skipWith, Value.encode, Value.encodeItems_eq, List.append_assoc,
    hhead]
  show (readMany item items.length _).map (·.2) = some rest
  rw [readMany_flatMap hitem]
  rfl

theorem skip_map {depth : Nat} {entries : List (Value × Value)}
    (count : entries.length < 2 ^ 64)
    (hkey : ∀ p ∈ entries, ∀ rest,
      skip depth (p.1.encode ++ rest) = some rest)
    (hvalue : ∀ p ∈ entries, ∀ rest,
      skip depth (p.2.encode ++ rest) = some rest)
    (rest : Octets) :
    skip (depth + 1) ((Value.map entries).encode ++ rest) = some rest := by
  let form (p : Value × Value) : Octets := p.1.encode ++ p.2.encode
  -- a round passes over a key and the value behind it
  let round : Reader Unit := fun b =>
    ((skip depth b).bind (skip depth)).map ((), ·)
  have hround : ∀ p ∈ entries, ∀ rest,
      round (form p ++ rest) = some ((), rest) := by
    intro p hp rest
    simp [round, form, hkey p hp, hvalue p hp]
  have hhead : Header.read (head 5 entries.length
      ++ (entries.flatMap form ++ rest))
        = some (.map (some entries.length), _) :=
    read_head (by decide) count (fun _ => rfl) _
  rw [skip, skipWith, Value.encode, Value.encodeEntries_eq,
    List.append_assoc, hhead]
  show (readMany round entries.length _).map (·.2) = some rest
  rw [readMany_flatMap hround]
  rfl

-- =============================================================== values

/-- Passing over a value takes exactly its form off the front. -/
theorem skip_encode {v : Value} (h : v.Fits) {depth : Nat}
    (hdepth : v.depth ≤ depth) (rest : Octets) :
    skip depth (v.encode ++ rest) = some rest := by
  induction h generalizing depth rest with
  | unsigned n => exact skip_of_skipWith (skipWith_unsigned · rest n) depth
  | negative n => exact skip_of_skipWith (skipWith_negative · rest n) depth
  | octets length =>
      exact skip_of_skipWith (skipWith_octets · rest length) depth
  | text length => exact skip_of_skipWith (skipWith_text · rest length) depth
  | bool b => exact skip_of_skipWith (skipWith_bool · rest b) depth
  | null => exact skip_of_skipWith (skipWith_null · rest) depth
  | array count _ ih =>
      rw [Value.depth] at hdepth
      cases depth with
      | zero => omega
      | succ depth =>
          refine skip_array count (fun v hv rest => ih v hv ?_ rest) rest
          have hv' := Value.depth_le_depthItems hv
          omega
  | map count _ _ ihkey ihvalue =>
      rw [Value.depth] at hdepth
      cases depth with
      | zero => omega
      | succ depth =>
          refine skip_map count (fun p hp rest => ihkey p hp ?_ rest)
            (fun p hp rest => ihvalue p hp ?_ rest) rest
          · have := (Value.depth_le_depthEntries hp).1
            omega
          · have := (Value.depth_le_depthEntries hp).2
            omega

end OnceProxy.Cbor
