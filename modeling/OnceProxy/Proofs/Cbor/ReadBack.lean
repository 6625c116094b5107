/-
Reading what was written: each reader, at the front of the canonical form
of a value of its type, takes exactly that form off and gives the value
back, whatever octets follow.

# The one hypothesis

Heads write their argument in at most eight octets, so the length of every
string and sequence has to be below `2 ^ 64`. It comes in through
`read_head` alone; every other lemma here hands it down.

# The shape of the lemmas

Each is an equation `reader (form ++ rest) = some (value, rest)`, usable
as a rewrite from left to right. Since the rest is arbitrary, the forms of
the items of a sequence are read one behind the other by rewriting with
the lemma of the item (`readMany_flatMap`), and the fields of a record
likewise.
-/
import OnceProxy.Cbor.Read
import OnceProxy.Cbor.Value
import OnceProxy.Proofs.Octets

namespace OnceProxy.Cbor

-- =============================================================== heads

/-- Cutting off as many octets as were put in front gives these. -/
theorem take?_append (b rest : Octets) :
    take? b.length (b ++ rest) = some (b, rest) := by
  simp [take?]

/-- The widths that heads use behind their first octet, with the low bits
that announce them. -/
def wideForms : List (Nat × Nat) := [(24, 1), (25, 2), (26, 4), (27, 8)]

/-- An argument behind the first octet is read back. -/
theorem readArgument_wide {low width n : Nat} (hw : (low, width) ∈ wideForms)
    (hn : n < 256 ^ width) (rest : Octets) :
    readArgument low (Octets.bigEndian width n ++ rest)
      = some (some n, rest) := by
  have hcut := take?_append (Octets.bigEndian width n) rest
  rw [Octets.length_bigEndian] at hcut
  have hback := Octets.ofBigEndian_bigEndian hn
  simp only [wideForms, List.mem_cons, Prod.mk.injEq, List.not_mem_nil,
    or_false] at hw
  rcases hw with ⟨rfl, rfl⟩ | ⟨rfl, rfl⟩ | ⟨rfl, rfl⟩ | ⟨rfl, rfl⟩ <;>
    simp [readArgument, hcut, hback]

/-- A head is a first octet with five low bits, and an argument that these
bits announce. -/
theorem head_cons (kind : Nat) {n : Nat} (hn : n < 2 ^ 64) :
    ∃ low arg, low < 32 ∧ head kind n = UInt8.ofNat (kind * 32 + low) :: arg
      ∧ ∀ rest, readArgument low (arg ++ rest) = some (some n, rest) := by
  have hwide : ∀ low width, (low, width) ∈ wideForms → n < 256 ^ width →
      ∀ rest, readArgument low (Octets.bigEndian width n ++ rest)
        = some (some n, rest) :=
    fun _ _ hw hlt rest => readArgument_wide hw hlt rest
  unfold head
  dsimp only
  split
  · next h =>
    exact ⟨n, [], by omega, rfl, fun rest => by simp [readArgument, h]⟩
  · split
    · exact ⟨24, _, by omega, rfl, hwide 24 1 (by decide) (by omega)⟩
    · split
      · exact ⟨25, _, by omega, rfl, hwide 25 2 (by decide) (by omega)⟩
      · split
        · exact ⟨26, _, by omega, rfl, hwide 26 4 (by decide) (by omega)⟩
        · exact ⟨27, _, by omega, rfl, hwide 27 8 (by decide) (by omega)⟩

/-- A head is never empty. -/
theorem head_length_pos (kind : Nat) {n : Nat} (hn : n < 2 ^ 64) :
    0 < (head kind n).length := by
  obtain ⟨low, arg, -, hhead, -⟩ := head_cons kind hn
  rw [hhead]
  exact Nat.succ_pos _

/-- A written head is read back, where its kind and argument make a head
whichever width was used. -/
theorem read_head {kind n : Nat} {h : Header} (hk : kind < 8)
    (hn : n < 2 ^ 64)
    (hmake : ∀ low, Header.make? kind low (some n) = some h)
    (rest : Octets) :
    Header.read (head kind n ++ rest) = some (h, rest) := by
  obtain ⟨low, arg, hlow, hhead, harg⟩ := head_cons kind hn
  have hoctet : (UInt8.ofNat (kind * 32 + low)).toNat = kind * 32 + low := by
    rw [UInt8.toNat_ofNat']
    omega
  have hkind : (kind * 32 + low) / 32 = kind := by omega
  have hbits : (kind * 32 + low) % 32 = low := by omega
  rw [hhead, List.cons_append]
  simp only [Header.read, hoctet, hkind, hbits, harg, hmake,
    Option.bind_eq_bind, Option.bind_some, Option.pure_def]

/-- A written head that is no tag is the next head. -/
theorem nextHead_head {kind n : Nat} {h : Header} (hk : kind < 8)
    (hn : n < 2 ^ 64)
    (hmake : ∀ low, Header.make? kind low (some n) = some h)
    (htag : ∀ t, h ≠ .tag t) (rest : Octets) :
    nextHead (head kind n ++ rest) = some (h, rest) := by
  have hpos := head_length_pos kind hn
  obtain ⟨fuel, hfuel⟩ :
      ∃ fuel, (head kind n ++ rest).length = fuel + 1 :=
    ⟨(head kind n ++ rest).length - 1, by
      rw [List.length_append]
      omega⟩
  unfold nextHead
  rw [hfuel]
  simp only [readUntagged, read_head hk hn hmake rest,
    Option.bind_eq_bind, Option.bind_some]
  cases h with
  | tag t => exact absurd rfl (htag t)
  | unsigned m => rfl
  | negative m => rfl
  | octets l => rfl
  | text l => rfl
  | array l => rfl
  | map l => rfl
  | float => rfl
  | simple m => rfl
  | stop => rfl

-- ============================================================ integers

/-- A written number is read back if it is below the bound. -/
theorem readNatural_head {n bound : Nat} (hn : n < 2 ^ 64) (hb : n < bound)
    (rest : Octets) :
    readNatural bound (head 0 n ++ rest) = some (n, rest) := by
  have hpos := head_length_pos 0 hn
  obtain ⟨fuel, hfuel⟩ : ∃ fuel, (head 0 n ++ rest).length = fuel + 1 :=
    ⟨(head 0 n ++ rest).length - 1, by
      rw [List.length_append]
      omega⟩
  have hread : Header.read (head 0 n ++ rest) = some (.unsigned n, rest) :=
    read_head (by decide) hn (fun _ => rfl) rest
  unfold readNatural
  rw [hfuel]
  simp [readNaturalWith, hread, hb]

/-- A written number of 64 bits is read back. -/
theorem readUInt64_encode (n : UInt64) (rest : Octets) :
    readUInt64 ((Value.unsigned n).encode ++ rest) = some (n, rest) := by
  have hbound : n.toNat < UInt64.size := n.toNat_lt
  rw [Value.encode, readUInt64, readNatural_head n.toNat_lt hbound]
  simp

-- ============================================================= strings

/-- A written octet string is read back. -/
theorem readOctets_encode {b : Octets} (hb : b.length < 2 ^ 64)
    (rest : Octets) :
    readOctets ((Value.octets b).encode ++ rest) = some (b, rest) := by
  rw [Value.encode, List.append_assoc, readOctets,
    nextHead_head (h := .octets (some b.length)) (by decide) hb
      (fun _ => rfl) (fun _ => by simp)]
  simp [readOctetsBody, readString, take?_append]

/-- A written text is read back. -/
theorem readText_encode {s : String} (hs : (Octets.ofText s).length < 2 ^ 64)
    (rest : Octets) :
    readText ((Value.text s).encode ++ rest) = some (s, rest) := by
  rw [Value.encode, List.append_assoc, readText,
    nextHead_head (h := .text (some (Octets.ofText s).length)) (by decide)
      hs (fun _ => rfl) (fun _ => by simp)]
  simp [readTextBody, readString, take?_append, Octets.toText?_ofText]

-- =========================================================== sequences

/-- The items of an array stand one behind the other. -/
theorem Value.encodeItems_eq (items : List Value) :
    encodeItems items = items.flatMap encode := by
  induction items with
  | nil => rfl
  | cons v items ih => simp [encodeItems, ih]

/-- What stands one behind the other is read one behind the other, by any
reader that reads each of it. -/
theorem readMany_flatMap {ι α : Type} {item : Reader α} {value : ι → α}
    {form : ι → Octets} {is : List ι}
    (hitem : ∀ i ∈ is, ∀ rest, item (form i ++ rest)
      = some (value i, rest)) (rest : Octets) :
    readMany item is.length (is.flatMap form ++ rest)
      = some (is.map value, rest) := by
  induction is with
  | nil => rfl
  | cons i is ih =>
      have hi := hitem i (List.mem_cons_self ..)
      have his := ih fun x hx => hitem x (List.mem_cons_of_mem _ hx)
      simp only [List.flatMap_cons, List.append_assoc, List.length_cons,
        readMany, hi, his, Option.bind_eq_bind, Option.bind_some,
        Option.pure_def, List.map_cons]

/-- A written sequence is read back. -/
theorem readSequence_encode {α : Type} (item : Reader α) (form : α → Value)
    {as : List α} (hlen : as.length < 2 ^ 64)
    (hitem : ∀ a ∈ as, ∀ rest, item ((form a).encode ++ rest)
      = some (a, rest)) (rest : Octets) :
    readSequence item ((Value.array (as.map form)).encode ++ rest)
      = some (as, rest) := by
  have hmany : readMany item as.length
      (as.flatMap (fun a => (form a).encode) ++ rest)
        = some (as.map id, rest) := readMany_flatMap hitem rest
  rw [Value.encode, List.length_map, List.append_assoc, readSequence,
    nextHead_head (h := .array (some as.length)) (by decide) hlen
      (fun _ => rfl) (fun _ => by simp), Value.encodeItems_eq,
    List.flatMap_map]
  simpa [readContents] using hmany

/-- A written pair is read back. -/
theorem readPair_encode {α β : Type} {first : Reader α} {second : Reader β}
    {v w : Value} {x : α} {y : β}
    (hx : ∀ rest, first (v.encode ++ rest) = some (x, rest))
    (hy : ∀ rest, second (w.encode ++ rest) = some (y, rest))
    (rest : Octets) :
    readPair first second ((Value.array [v, w]).encode ++ rest)
      = some ((x, y), rest) := by
  rw [Value.encode, List.append_assoc, readPair, readTupleHead,
    nextHead_head (n := [v, w].length) (h := .array (some 2)) (by decide)
      (by simp) (fun _ => rfl) (fun _ => by simp)]
  simp [Value.encodeItems, readTupleField, hx, hy]

/-- A written triple is read back. -/
theorem readTriple_encode {α β γ : Type} {first : Reader α}
    {second : Reader β} {third : Reader γ} {u v w : Value} {x : α} {y : β}
    {z : γ} (hx : ∀ rest, first (u.encode ++ rest) = some (x, rest))
    (hy : ∀ rest, second (v.encode ++ rest) = some (y, rest))
    (hz : ∀ rest, third (w.encode ++ rest) = some (z, rest))
    (rest : Octets) :
    readTriple first second third ((Value.array [u, v, w]).encode ++ rest)
      = some ((x, y, z), rest) := by
  rw [Value.encode, List.append_assoc, readTriple, readTupleHead,
    nextHead_head (n := [u, v, w].length) (h := .array (some 3)) (by decide)
      (by simp) (fun _ => rfl) (fun _ => by simp)]
  simp [Value.encodeItems, readTupleField, hx, hy, hz]

-- ============================================================= records

/-- The key of a written field is read back. -/
theorem readKey_encode {s : String} (hs : (Octets.ofText s).length ≤ 4096)
    (rest : Octets) :
    readKey ((Value.text s).encode ++ rest)
      = some (Octets.ofText s, rest) := by
  rw [Value.encode, List.append_assoc, readKey,
    nextHead_head (h := .text (some (Octets.ofText s).length)) (by decide)
      (by omega) (fun _ => rfl) (fun _ => by simp)]
  simp [hs, take?_append, Octets.toText?_ofText]

/-- One field of a written record: the step for its key reads its value,
and the other fields follow. -/
theorem foldMany_entry {σ : Type} {field : σ → Octets → Reader σ}
    {s : σ} (t : σ) {key : String} {v : Value}
    (hkey : (Octets.ofText key).length ≤ 4096)
    (hfield : ∀ rest, field s (Octets.ofText key) (v.encode ++ rest)
      = some (t, rest))
    (n : Nat) (fields : List (Value × Value)) (rest : Octets) :
    foldMany field (n + 1) s
        (Value.encodeEntries ((.text key, v) :: fields) ++ rest)
      = foldMany field n t (Value.encodeEntries fields ++ rest) := by
  simp only [Value.encodeEntries, List.append_assoc, foldMany,
    readKey_encode hkey, hfield, Option.bind_eq_bind, Option.bind_some]

/-- A written record is read by folding its fields. -/
theorem readRecord_encode {σ : Type} (field : σ → Octets → Reader σ)
    (start : σ) {fields : List (Value × Value)}
    (hlen : fields.length < 2 ^ 64) (rest : Octets) :
    readRecord field start ((Value.map fields).encode ++ rest)
      = foldMany field fields.length start
          (Value.encodeEntries fields ++ rest) := by
  rw [Value.encode, List.append_assoc, readRecord,
    nextHead_head (h := .map (some fields.length)) (by decide) hlen
      (fun _ => rfl) (fun _ => by simp)]
  rfl

end OnceProxy.Cbor
