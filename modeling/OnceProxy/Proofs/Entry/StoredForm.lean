/-
The stored form of an entry: what reading makes of what was written, by this
version or by a later one.

# What reading depends on

Reading keeps a draft, and the field of a key is read into it. After some
fields the draft has their values and no others (`Draft.only`), in whatever
order they came, so a round of the reader is one lemma for the fields that
are known (`readField_known`) and one for those that are not
(`readField_foreign`), and the fields of a record are one induction
(`foldMany_fields`). A known field may come once; `knownTags` names those.

# What follows

With the fields in the order in which they are written, reading gives back
the entry whatever octets follow, so the stored form determines the entry
and ends where it says (`encode_self_delimiting`). With the fields in any
order and fields of later versions among them, it still does, and
headers and body may be missing (`decode_across_versions`).

An entry whose lengths do not fit into 64 bits would be cut off by the
heads; `Fits` says that its lengths do.
-/
import OnceProxy.Entry.Codec
import OnceProxy.Proofs.Cbor.Skipping
import OnceProxy.Proofs.Octets

namespace OnceProxy.Entry

open Crypto Cbor

-- ============================================================== lengths

/-- The lengths of an entry's parts are numbers of 64 bits, as those of
everything that is held in memory. -/
structure Fits (e : Entry) : Prop where
  count : e.headers.length < 2 ^ 64
  names : ∀ f ∈ e.headers, (Octets.ofText f.1).length < 2 ^ 64
  values : ∀ f ∈ e.headers, f.2.length < 2 ^ 64
  body : e.body.length < 2 ^ 64

instance (e : Entry) : Decidable e.Fits :=
  decidable_of_iff
    (e.headers.length < 2 ^ 64
      ∧ (∀ f ∈ e.headers, (Octets.ofText f.1).length < 2 ^ 64)
      ∧ (∀ f ∈ e.headers, f.2.length < 2 ^ 64) ∧ e.body.length < 2 ^ 64)
    ⟨fun ⟨hcount, hnames, hvalues, hbody⟩ => ⟨hcount, hnames, hvalues, hbody⟩,
      fun h => ⟨h.count, h.names, h.values, h.body⟩⟩

/-- The expiry has no length. -/
theorem Fits.withExpiry {e : Entry} (h : e.Fits) (t : UInt64) :
    (e.withExpiry t).Fits :=
  ⟨h.count, h.names, h.values, h.body⟩

-- =============================================================== fields

/-- The keys of the fields that are understood. -/
def knownTags : List String := ["v", "fp", "cd", "st", "hd", "bd", "ca", "ea"]

/-- The fields of an entry as a version writes them. -/
def fieldsAt (e : Entry) (version : UInt8) : List (String × Value) :=
  ("v", .unsigned version.toUInt64) :: e.storedFields.tail

/-- A field that is not understood, but can be passed over. -/
structure Foreign (f : String × Value) : Prop where
  tag : f.1 ∉ knownTags
  short : (Octets.ofText f.1).length ≤ 4096
  fits : f.2.Fits
  depth : f.2.depth < depthLimit

theorem storedFields_eq (e : Entry) : e.storedFields = e.fieldsAt 1 := rfl

theorem tags_fieldsAt (e : Entry) (version : UInt8) :
    (e.fieldsAt version).map (·.1) = knownTags := rfl

theorem tag_mem_knownTags {e : Entry} {version : UInt8} {f : String × Value}
    (h : f ∈ e.fieldsAt version) : f.1 ∈ knownTags := by
  rw [← tags_fieldsAt e version]
  exact List.mem_map_of_mem h

theorem length_ofText_knownTag :
    ∀ tag ∈ knownTags, (Octets.ofText tag).length ≤ 4096 := by
  decide

/-- The header fields of a written entry are read back. -/
theorem readHeaders_encode {e : Entry} (h : e.Fits) (rest : Octets) :
    readSequence (readPair readText readOctets)
        ((Value.array (e.headers.map fun f =>
          .array [.text f.1, .octets f.2])).encode ++ rest)
      = some (e.headers, rest) := by
  refine readSequence_encode _ _ h.count (fun f hf => ?_) rest
  exact readPair_encode (readText_encode (h.names f hf))
    (readOctets_encode (h.values f hf))

-- =============================================================== drafts

/-- The draft of an entry all of whose fields have been read. -/
def draftAt (e : Entry) (version : UInt8) : Draft where
  version := some version.toNat
  fingerprint := some e.fingerprint.octets
  content := some e.content.octets
  status := some e.status.toNat
  headers := some e.headers
  body := some e.body
  createdAt := some e.createdAt
  expiresAt := some e.expiresAt

/-- What a draft has of the fields with some keys. -/
def Draft.only (d : Draft) (tags : List String) : Draft where
  version := if "v" ∈ tags then d.version else none
  fingerprint := if "fp" ∈ tags then d.fingerprint else none
  content := if "cd" ∈ tags then d.content else none
  status := if "st" ∈ tags then d.status else none
  headers := if "hd" ∈ tags then d.headers else none
  body := if "bd" ∈ tags then d.body else none
  createdAt := if "ca" ∈ tags then d.createdAt else none
  expiresAt := if "ea" ∈ tags then d.expiresAt else none

theorem Draft.only_nil (d : Draft) : d.only [] = .empty := by
  simp [Draft.only, Draft.empty]

/-- A key that is not understood adds nothing to a draft. -/
theorem Draft.only_foreign (d : Draft) (tags : List String) {tag : String}
    (h : tag ∉ knownTags) : d.only (tags ++ [tag]) = d.only tags := by
  simp only [knownTags, List.mem_cons, List.not_mem_nil, or_false,
    not_or] at h
  simp [Draft.only, Ne.symm, h]

-- =============================================================== rounds

variable {e : Entry} {version : UInt8} {f : String × Value}

/-- A field that is understood is read into the draft, if it is the first
with its key. -/
theorem readField_known (h : e.Fits) (hf : f ∈ e.fieldsAt version)
    {tags : List String} (first : f.1 ∉ tags) (rest : Octets) :
    Draft.readField ((e.draftAt version).only tags) (Octets.ofText f.1)
        (f.2.encode ++ rest)
      = some ((e.draftAt version).only (tags ++ [f.1]), rest) := by
  -- what the readers of the eight values give
  have hversion : readNatural 256
      ((Value.unsigned version.toUInt64).encode ++ rest)
        = some (version.toNat, rest) := by
    have hlt : version.toNat < 256 := version.toNat_lt
    exact readNatural_head (Nat.lt_trans hlt (by decide)) hlt rest
  have hdigest : ∀ d : Digest,
      readOctets ((Value.octets d.octets).encode ++ rest)
        = some (d.octets, rest) :=
    fun d => readOctets_encode d.length_lt rest
  have hstatus : readNatural 65536
      ((Value.unsigned e.status.toUInt64).encode ++ rest)
        = some (e.status.toNat, rest) := by
    have hlt : e.status.toNat < 65536 := e.status.toNat_lt
    exact readNatural_head (Nat.lt_trans hlt (by decide)) hlt rest
  have hheaders := readHeaders_encode h rest
  have hbody := readOctets_encode h.body rest
  simp only [fieldsAt, storedFields, List.tail_cons, List.mem_cons,
    List.not_mem_nil, or_false] at hf
  rcases hf with rfl | rfl | rfl | rfl | rfl | rfl | rfl | rfl <;>
    simp_all [Draft.readField, Draft.only, draftAt, readOnce,
      readUInt64_encode]

/-- A field that is not understood is passed over. -/
theorem readField_foreign (hf : Foreign f) (d : Draft) (rest : Octets) :
    Draft.readField d (Octets.ofText f.1) (f.2.encode ++ rest)
      = some (d, rest) := by
  have htag := hf.tag
  have hskip : skip (depthLimit - 1) (f.2.encode ++ rest) = some rest :=
    skip_encode hf.fits (Nat.le_pred_of_lt hf.depth) rest
  simp only [knownTags, List.mem_cons, List.not_mem_nil, or_false,
    not_or] at htag
  simp [Draft.readField, htag, hskip]

/-- Reading fields, each understood or not, puts those that are understood
into the draft, if each comes once. -/
theorem foldMany_fields (h : e.Fits) {fields : List (String × Value)}
    (hfields : ∀ f ∈ fields, f ∈ e.fieldsAt version ∨ Foreign f)
    {tags : List String}
    (once : ∀ tag ∈ knownTags, (tags ++ fields.map (·.1)).count tag ≤ 1)
    (rest : Octets) :
    foldMany Draft.readField fields.length ((e.draftAt version).only tags)
        (Value.encodeEntries (fields.map fun f => (.text f.1, f.2)) ++ rest)
      = some ((e.draftAt version).only (tags ++ fields.map (·.1)), rest) := by
  induction fields generalizing tags with
  | nil => simp [foldMany, Value.encodeEntries]
  | cons f fields ih =>
      have honce : ∀ tag ∈ knownTags,
          (tags ++ [f.1] ++ fields.map (·.1)).count tag ≤ 1 := by
        simpa using once
      have hrest := ih (fun g hg => hfields g (List.mem_cons_of_mem _ hg))
        honce
      rw [List.append_assoc, List.singleton_append] at hrest
      rw [List.map_cons, List.map_cons, List.length_cons, ← hrest]
      refine foldMany_entry _ ?short (fun rest => ?read) ..
      case short =>
        rcases hfields f (List.mem_cons_self ..) with hf | hf
        · exact length_ofText_knownTag _ (tag_mem_knownTags hf)
        · exact hf.short
      case read =>
        rcases hfields f (List.mem_cons_self ..) with hf | hf
        · refine readField_known h hf ?_ rest
          -- a second field of this key would be counted twice
          intro hin
          have htwo := honce f.1 (tag_mem_knownTags hf)
          have hone := List.count_pos_iff.mpr hin
          simp only [List.count_append, List.count_singleton_self] at htwo
          omega
        · rw [Draft.only_foreign _ _ hf.tag]
          exact readField_foreign hf _ rest

-- ================================================================ entries

/-- The keys of the fields that may be missing. -/
def optionalTags : List String := ["hd", "bd"]

/-- The entry with empty headers or body where their fields are missing. -/
def without (e : Entry) (absent : List String) : Entry :=
  { e with
    headers := if "hd" ∈ absent then [] else e.headers
    body := if "bd" ∈ absent then [] else e.body }

/-- A draft that lacks no other field than headers and body makes the entry
without them, or is of a later version. -/
theorem finish_only {tags absent : List String}
    (optional : ∀ tag ∈ absent, tag ∈ optionalTags)
    (present : ∀ tag ∈ knownTags, tag ∈ tags ↔ tag ∉ absent) :
    ((e.draftAt version).only tags).finish
      = if version.toNat ≤ formatVersion then .ok (e.without absent)
        else .error (.unsupportedVersion version.toNat) := by
  have hneeded : ∀ tag ∈ ["v", "fp", "cd", "st", "ca", "ea"],
      tag ∈ tags := by
    intro tag htag
    have hknown : tag ∈ knownTags ∧ tag ∉ optionalTags := by
      revert tag
      decide
    exact (present tag hknown.1).mpr fun hin => hknown.2 (optional tag hin)
  have hheaders := present "hd" (by decide)
  have hbody := present "bd" (by decide)
  simp only [List.forall_mem_cons] at hneeded
  obtain ⟨hv, hfp, hcd, hst, hca, hea, -⟩ := hneeded
  by_cases hversion : version.toNat ≤ formatVersion
  · have hd : (Draft.only (e.draftAt version) tags).headers.getD []
        = (e.without absent).headers := by
      by_cases h : "hd" ∈ absent <;>
        simp [Draft.only, draftAt, without, hheaders, h]
    have bd : (Draft.only (e.draftAt version) tags).body.getD []
        = (e.without absent).body := by
      by_cases h : "bd" ∈ absent <;>
        simp [Draft.only, draftAt, without, hbody, h]
    unfold Draft.finish
    rw [hd, bd]
    simp [Draft.only, draftAt, hv, hfp, hcd, hst, hca, hea, hversion,
      digestField, Bind.bind, Except.bind, Pure.pure, Except.pure, without,
      Nat.not_lt.mpr hversion]
  · simp [Draft.only, draftAt, Draft.finish, hv, hfp, hcd, hst, hca, hea,
      hversion, Nat.not_le.mp hversion]

-- ============================================================== reading

/-- Reading a record of fields, each understood or not, none of which is
missing but headers and body, and each of which comes once if it is
understood. -/
theorem decode_fields (h : e.Fits) {fields : List (String × Value)}
    (hfields : ∀ f ∈ fields, f ∈ e.fieldsAt version ∨ Foreign f)
    (once : ∀ tag ∈ knownTags, (fields.map (·.1)).count tag ≤ 1)
    {absent : List String} (optional : ∀ tag ∈ absent, tag ∈ optionalTags)
    (present : ∀ tag ∈ knownTags,
      tag ∈ fields.map (·.1) ↔ tag ∉ absent)
    (count : fields.length < 2 ^ 64) (rest : Octets) :
    decode ((Value.map (fields.map fun f => (.text f.1, f.2))).encode ++ rest)
      = if version.toNat ≤ formatVersion then .ok (e.without absent)
        else .error (.unsupportedVersion version.toNat) := by
  have hfold : foldMany Draft.readField fields.length
      ((e.draftAt version).only []) _ = some (_, rest) :=
    foldMany_fields h hfields (by simpa using once) rest
  rw [List.nil_append, Draft.only_nil] at hfold
  unfold decode
  rw [readRecord_encode _ _ (by rwa [List.length_map]), List.length_map,
    hfold]
  exact finish_only optional present

/-- Reading gives back the entry that was written, whatever follows. -/
theorem decode_encode_append {e : Entry} (h : e.Fits) (rest : Octets) :
    decode (e.encode ++ rest) = .ok e := by
  have hnone : ∀ tag ∈ ([] : List String), tag ∈ optionalTags := nofun
  unfold encode
  rw [e.storedFields_eq]
  refine decode_fields h (fun f hf => .inl hf) ?_ hnone ?_ ?_ rest
  · rw [tags_fieldsAt]
    decide
  · rw [tags_fieldsAt]
    decide
  · show knownTags.length < 2 ^ 64
    decide

/-- Reading gives back the entry that was written. -/
theorem decode_encode {e : Entry} (h : e.Fits) : decode e.encode = .ok e := by
  have := decode_encode_append h []
  rwa [List.append_nil] at this

-- ========================================================== determined

/-- The form of an entry is cut off in one way only. -/
theorem encode_append_inj {e e' : Entry} (h : e.Fits) (h' : e'.Fits)
    {rest rest' : Octets} (heq : e.encode ++ rest = e'.encode ++ rest') :
    e = e' ∧ rest = rest' := by
  have hread := decode_encode_append h rest
  rw [heq, decode_encode_append h'] at hread
  have hsame : e = e' := (Except.ok.inj hread).symm
  subst hsame
  exact ⟨rfl, List.append_cancel_left heq⟩

/-- The stored form delimits itself. Reading gives back the entry whatever
octets follow, so two entries have two forms, and no form goes on where
another one ends. -/
theorem encode_self_delimiting :
    (∀ e : Entry, e.Fits → ∀ rest, decode (e.encode ++ rest) = .ok e)
    ∧ (∀ e e' : Entry, e.Fits → e'.Fits → e.encode = e'.encode → e = e')
    ∧ ∀ e e' : Entry, e.Fits → e'.Fits → e.encode <+: e'.encode →
      e = e' := by
  refine ⟨fun e h => decode_encode_append h, ?_, ?_⟩
  · intro e e' h h' heq
    have happend : e.encode ++ [] = e'.encode ++ [] := congrArg (· ++ []) heq
    exact (encode_append_inj h h' happend).1
  · intro e e' h h' hprefix
    obtain ⟨rest, hrest⟩ := hprefix
    rw [← List.append_nil e'.encode] at hrest
    exact (encode_append_inj h h' hrest).1

namespace Sample

/-- A body of the greatest length that stands in the first octet of a head. -/
def narrow : Entry :=
  ⟨.ofNat 1, .ofNat 2, 201, [("x-größe", [0xff, 0x00]), ("", [])],
    List.replicate 23 0x18, 1000, 2000⟩

/-- A body of the next length. -/
def wide : Entry := { narrow with body := List.replicate 24 0x18 }

theorem fits_narrow : narrow.Fits := by decide

theorem fits_wide : wide.Fits := by decide

end Sample

theorem encode_self_delimiting_widths :
    Sample.narrow.Fits ∧ Sample.wide.Fits
    ∧ decode (Sample.narrow.encode ++ Sample.wide.encode) = .ok Sample.narrow
    ∧ ¬Sample.narrow.encode <+: Sample.wide.encode := by
  obtain ⟨hread, -, hprefix⟩ := encode_self_delimiting
  refine ⟨Sample.fits_narrow, Sample.fits_wide,
    hread _ Sample.fits_narrow _, fun h => ?_⟩
  have hsame := hprefix _ _ Sample.fits_narrow Sample.fits_wide h
  exact absurd (congrArg Entry.body hsame) (by decide)

-- =========================================================== versions

/-- Reading goes across versions. Let the fields of an entry, as some version
writes them, come in any order and among them any fields that are not
understood, with keys and nesting that can be passed over; the headers' and
the body's field may be missing. If the version is not a later one, reading
gives back the entry, with empty headers or body if they were missing; if it
is, reading tells which version it is. -/
theorem decode_across_versions {e : Entry} (h : e.Fits) (version : UInt8)
    {absent : List String} (optional : ∀ tag ∈ absent, tag ∈ optionalTags)
    {added : List (String × Value)} (foreign : ∀ f ∈ added, Foreign f)
    {fields : List (String × Value)}
    (order : fields.Perm
      ((e.fieldsAt version).filter (fun f => f.1 ∉ absent) ++ added))
    (count : fields.length < 2 ^ 64) (rest : Octets) :
    decode ((Value.map (fields.map fun f => (.text f.1, f.2))).encode ++ rest)
      = if version.toNat ≤ formatVersion then .ok (e.without absent)
        else .error (.unsupportedVersion version.toNat) := by
  -- the keys, in their order and in any order
  have htags : (fields.map (·.1)).Perm
      (knownTags.filter (· ∉ absent) ++ added.map (·.1)) := by
    rw [← tags_fieldsAt e version, List.filter_map, ← List.map_append]
    exact order.map _
  have hadded : ∀ tag ∈ knownTags, tag ∉ added.map (·.1) := by
    intro tag htag hin
    obtain ⟨f, hf, rfl⟩ := List.mem_map.mp hin
    exact (foreign f hf).tag htag
  refine decode_fields h (fun f hf => ?_) (fun tag htag => ?_) optional
    (fun tag htag => ?_) count rest
  · rcases List.mem_append.mp (order.mem_iff.mp hf) with hf | hf
    · exact .inl (List.mem_filter.mp hf).1
    · exact .inr (foreign f hf)
  · have honce : ∀ tag ∈ knownTags, knownTags.count tag ≤ 1 := by decide
    have hkept := (List.filter_sublist (l := knownTags)
      (p := (· ∉ absent))).count_le tag
    rw [htags.count_eq, List.count_append,
      List.count_eq_zero_of_not_mem (hadded tag htag)]
    have := honce tag htag
    omega
  · rw [htags.mem_iff, List.mem_append, List.mem_filter]
    simp [htag, hadded tag htag]

namespace Sample

/-- A map with a nested value. -/
def nested : Value :=
  .map [(.unsigned 1, .array [.negative 0, .null]),
    (.octets [1, 2], .map [])]

/-- Fields that no version has written yet, one of them twice. -/
def added : List (String × Value) :=
  [("zz", .text "später"), ("next", nested), ("zz", .bool true)]

/-- The fields of a version and the added ones, last ones first, without
headers. -/
def fields (version : UInt8) : List (String × Value) :=
  ((wide.fieldsAt version).filter (fun f => f.1 ∉ ["hd"]) ++ added).reverse

/-- Their form. -/
def mixed (version : UInt8) : Octets :=
  (Value.map ((fields version).map fun f => (.text f.1, f.2))).encode

theorem fits_nested : nested.Fits := by
  have hitems : (Value.array [.negative 0, .null]).Fits := by
    refine .array (by decide) ?_
    simp only [List.forall_mem_cons]
    exact ⟨.negative 0, .null, nofun⟩
  refine .map (by decide) ?_ ?_
  · simp only [List.forall_mem_cons]
    exact ⟨.unsigned 1, .octets (by decide), nofun⟩
  · simp only [List.forall_mem_cons]
    exact ⟨hitems, .map (by decide) nofun nofun, nofun⟩

theorem foreign_added : ∀ f ∈ added, Foreign f := by
  unfold added
  simp only [List.forall_mem_cons]
  exact ⟨⟨by decide, by decide, .text (by decide), by decide⟩,
    ⟨by decide, by decide, fits_nested, by decide⟩,
    ⟨by decide, by decide, .bool true, by decide⟩, nofun⟩

end Sample

/-- The same fields as this version would take them and as a later one has
written them. -/
theorem decode_across_versions_mixed :
    decode (Sample.mixed 1) = .ok { Sample.wide with headers := [] }
    ∧ decode (Sample.mixed 7) = .error (.unsupportedVersion 7) := by
  have hone : decode (Sample.mixed 1 ++ []) = _ :=
    decode_across_versions Sample.fits_wide 1 (by decide)
      Sample.foreign_added (List.reverse_perm _) (by decide) []
  have hseven : decode (Sample.mixed 7 ++ []) = _ :=
    decode_across_versions Sample.fits_wide 7 (by decide)
      Sample.foreign_added (List.reverse_perm _) (by decide) []
  rw [List.append_nil] at hone hseven
  exact ⟨hone, hseven⟩

end OnceProxy.Entry
