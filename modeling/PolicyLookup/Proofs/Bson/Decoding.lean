/-
  PolicyLookup.Proofs.Bson.Decoding — the documents of an answer, decoded one by one.

  A list of documents is decoded up to the first one that has no mapping.  So it is decoded exactly
  if every document is, and what comes out are the mappings of the documents in their order.

    * `toValues_eq_ok_iff`, `toEntries_eq_ok_iff` — the parts of a document, one by one.
    * `decodeAll_eq_ok_iff` — the mappings of a list are the mappings of its documents.
    * `decodeAll_eq_error_iff` — the only obstacle is a document without a mapping.
-/

import PolicyLookup.Bson.Decoding
import PolicyLookup.Proofs.Value.Traversal

namespace PolicyLookup

/-- A list has partners exactly if each of its members has one. -/
theorem exists_forall₂_iff {α β : Type} {R : α → β → Prop} {as : List α} :
    (∃ bs, List.Forall₂ R as bs) ↔ ∀ a ∈ as, ∃ b, R a b := by
  constructor
  · rintro ⟨bs, h⟩
    induction h with
    | nil => exact nofun
    | cons hab _ ih => exact List.forall_mem_cons.mpr ⟨⟨_, hab⟩, ih⟩
  · intro h
    induction as with
    | nil => exact ⟨[], .nil⟩
    | cons a rest ih =>
      obtain ⟨b, hb⟩ := h a (.head _)
      obtain ⟨bs, hbs⟩ := ih fun a' ha' => h a' (.tail _ ha')
      exact ⟨b :: bs, .cons hb hbs⟩

/-! ## §1. Parts of a document. -/

namespace Bson

open Located

/-- The elements of an array are decoded one by one. -/
theorem toValues_eq_mapM (i : Nat) (items : List Bson) : toValues i items
    = (items.zipIdx i).mapM fun p => p.1.toValue.mapError (under (Path.index p.2)) :=
  eq_mapM_zipIdx toValues (fun _ => rfl)
    (fun _ b _ => by rw [toValues]; cases b.toValue <;> rfl) i items

/-- So are the fields of a document. -/
theorem toEntries_eq_mapM (fields : List (String × Bson)) : toEntries fields
    = fields.mapM fun f => (f.2.toValue.mapError (under f.1)).map (f.1, ·) :=
  eq_mapM toEntries rfl (fun f _ => by rw [toEntries]; cases f.2.toValue <;> rfl) fields

/-- The values of an array's elements are their values one by one. -/
theorem toValues_eq_ok_iff {items : List Bson} {vs : List Value} (i : Nat) :
    toValues i items = .ok vs ↔ List.Forall₂ (fun b v => b.toValue = .ok v) items vs := by
  rw [toValues_eq_mapM]
  exact mapM_zipIdx_eq_ok_iff fun _ _ => mapError_eq_ok_iff

/-- The entries of a document are its fields, with the values of what is in them. -/
theorem toEntries_eq_ok_iff {fields : List (String × Bson)} {entries : List (String × Value)} :
    toEntries fields = .ok entries ↔
      List.Forall₂ (fun f e => f.1 = e.1 ∧ f.2.toValue = .ok e.2) fields entries := by
  have hfield : ∀ (f : String × Bson) (e : String × Value),
      (f.2.toValue.mapError (under f.1)).map (f.1, ·) = .ok e ↔
        f.1 = e.1 ∧ f.2.toValue = .ok e.2 := by
    rintro f ⟨k, v⟩
    simp only [map_eq_ok_iff, mapError_eq_ok_iff, Prod.mk.injEq]
    constructor
    · rintro ⟨v', hv', rfl, rfl⟩
      exact ⟨rfl, hv'⟩
    · rintro ⟨rfl, hv⟩
      exact ⟨v, hv, rfl, rfl⟩
  simp only [toEntries_eq_mapM, mapM_eq_ok_iff, hfield]

end Bson

/-! ## §2. Lists of documents. -/

namespace Document

/-- The document can be decoded. -/
def HasMapping (d : Document) : Prop := ∃ m, d.decode = .ok m

theorem decode_eq_ok_iff {d : Document} {m : Mapping} :
    d.decode = .ok m ↔ d.toMapping = .ok m :=
  mapError_eq_ok_iff

/-- Documents are decoded one by one. -/
theorem toMappings_eq_mapM (i : Nat) (ds : List Document) : toMappings i ds
    = (ds.zipIdx i).mapM fun p => p.1.toMapping.mapError (Located.under (Path.index p.2)) :=
  eq_mapM_zipIdx toMappings (fun _ => rfl)
    (fun _ d _ => by rw [toMappings]; cases d.toMapping <;> rfl) i ds

/-- The position from which documents are counted shows in errors only. -/
theorem toMappings_eq_ok_iff {ds : List Document} {ms : List Mapping} (i : Nat) :
    toMappings i ds = .ok ms ↔ List.Forall₂ (fun d m => d.toMapping = .ok m) ds ms := by
  rw [toMappings_eq_mapM]
  exact mapM_zipIdx_eq_ok_iff fun _ _ => mapError_eq_ok_iff

/-- **The mappings of a list are the mappings of its documents**, all of them, in their order. -/
theorem decodeAll_eq_ok_iff {ds : List Document} {ms : List Mapping} :
    decodeAll ds = .ok ms ↔ List.Forall₂ (fun d m => d.decode = .ok m) ds ms := by
  simp only [decode_eq_ok_iff]
  rw [← toMappings_eq_ok_iff 0]
  exact mapError_eq_ok_iff

/-- What cannot be decoded is an error of encoding. -/
theorem decodeAll_error {ds : List Document} {e : Error} (h : decodeAll ds = .error e) :
    ∃ message path, e = .encoding message path := by
  unfold decodeAll at h
  cases hms : toMappings 0 ds with
  | error l =>
    rw [hms] at h
    cases h
    exact ⟨_, _, rfl⟩
  | ok ms =>
    rw [hms] at h
    cases h

/-- A list has mappings exactly if each of its documents has one. -/
theorem exists_mappings_iff {ds : List Document} :
    (∃ ms, List.Forall₂ (fun d m => d.decode = .ok m) ds ms) ↔ ∀ d ∈ ds, d.HasMapping :=
  exists_forall₂_iff

/-- **The only obstacle is a document without a mapping.** -/
theorem decodeAll_eq_error_iff {ds : List Document} :
    (∃ e, decodeAll ds = .error e) ↔ ∃ d ∈ ds, ¬ d.HasMapping := by
  have hok : (∃ ms, decodeAll ds = .ok ms) ↔ ∀ d ∈ ds, d.HasMapping := by
    simp only [decodeAll_eq_ok_iff]
    exact exists_mappings_iff
  have hbad : (∃ d ∈ ds, ¬ d.HasMapping) ↔ ¬ ∃ ms, decodeAll ds = .ok ms := by
    rw [hok]
    simp only [not_forall, exists_prop]
  rw [hbad]
  cases decodeAll ds with
  | error e =>
    constructor
    · rintro - ⟨ms, hms⟩
      cases hms
    · intro _
      exact ⟨e, rfl⟩
  | ok ms =>
    constructor
    · rintro ⟨e, he⟩
      cases he
    · intro h
      exact absurd ⟨ms, rfl⟩ h

end Document

end PolicyLookup
