/-
The entry for a response gives the response back.

Status and body come back as they were. The header fields come back as the
cacheable ones of the response, those of one name together. The expiry is
not part of what comes back, so a refreshed entry gives the same.
-/
import OnceProxy.Entry
import OnceProxy.Proofs.Entry.StoredForm
import OnceProxy.Proofs.Http.Fields
import OnceProxy.Http.Response

namespace OnceProxy

open Http

-- ============================================================== lengths

/-- The lengths of a response's parts are numbers of 64 bits, as those of
everything that is held in memory. -/
structure Http.Response.Fits (r : Response) : Prop where
  count : r.headers.fields.length < 2 ^ 64
  values : ∀ f ∈ r.headers.fields, f.2.octets.length < 2 ^ 64
  body : r.body.length < 2 ^ 64

instance (r : Response) : Decidable r.Fits :=
  decidable_of_iff
    (r.headers.fields.length < 2 ^ 64
      ∧ (∀ f ∈ r.headers.fields, f.2.octets.length < 2 ^ 64)
      ∧ r.body.length < 2 ^ 64)
    ⟨fun ⟨hcount, hvalues, hbody⟩ => ⟨hcount, hvalues, hbody⟩,
      fun h => ⟨h.count, h.values, h.body⟩⟩

/-- The cacheable fields are some of the fields, in their order. -/
theorem Http.Headers.sublist_cacheable (h : Headers) :
    h.cacheable.fields.Sublist h.fields :=
  List.filter_sublist.trans List.filter_sublist

namespace Entry

/-- The entry for a response fits if the response does. -/
theorem fits_ofResponse {r : Response} (h : r.Fits) (fp : Fingerprint)
    (createdAt expiresAt : UInt64) :
    (ofResponse fp r.status r.headers.cacheable r.body createdAt
      expiresAt).Fits := by
  have hsub := r.headers.sublist_cacheable
  have hperm := r.headers.cacheable.grouped_perm
  have hfield : ∀ f ∈ (ofResponse fp r.status r.headers.cacheable r.body
      createdAt expiresAt).headers,
      ∃ g ∈ r.headers.fields, f = (g.1.text, g.2.octets) := by
    intro f hf
    obtain ⟨g, hg, rfl⟩ := List.mem_map.mp hf
    exact ⟨g, hsub.mem (hperm.mem_iff.mp hg), rfl⟩
  refine ⟨?_, fun f hf => ?_, fun f hf => ?_, h.body⟩
  · show (r.headers.cacheable.grouped.map _).length < 2 ^ 64
    rw [List.length_map, hperm.length_eq]
    exact Nat.lt_of_le_of_lt hsub.length_le h.count
  · obtain ⟨g, -, rfl⟩ := hfield f hf
    exact g.1.length_ofText_lt
  · obtain ⟨g, hg, rfl⟩ := hfield f hf
    exact h.values g hg

variable (fp : Fingerprint) (status : Status) (headers : Headers)
  (body : Octets) (createdAt expiresAt : UInt64)

/-- The status comes back. -/
theorem statusCode_ofResponse :
    (ofResponse fp status headers body createdAt expiresAt).statusCode
      = status := by
  have hlow := status.low
  have hhigh := status.high
  have hcode : (UInt16.ofNat status.code).toNat = status.code := by
    rw [UInt16.toNat_ofNat']
    omega
  unfold statusCode ofResponse Status.ofCode?
  simp only [hcode]
  rw [dif_pos ⟨hlow, hhigh⟩]
  rfl

/-- The fields come back, those of one name together. -/
theorem headerMap_ofResponse :
    (ofResponse fp status headers body createdAt expiresAt).headerMap
      = ⟨headers.grouped⟩ := by
  -- each field is read as it was written
  have hread : (fun f : String × Octets => (do
      return (← FieldName.parse? f.1, ← FieldValue.ofOctets? f.2) :
        Option Field)) ∘ (fun f : Field => (f.1.text, f.2.octets)) = some := by
    refine funext fun f => ?_
    show (do return (← FieldName.parse? f.1.text,
      ← FieldValue.ofOctets? f.2.octets) : Option Field) = some f
    rw [f.1.parse?_text, f.2.ofOctets?_octets]
    rfl
  unfold headerMap ofResponse
  rw [List.filterMap_map]
  exact congrArg Headers.mk ((congrArg (List.filterMap · headers.grouped)
    hread).trans List.filterMap_some)

end Entry

end OnceProxy
