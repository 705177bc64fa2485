/-
  PolicyLookup.Proofs.Value.Places — where in a value its doubles stand.

  Every double is listed with the path that leads to it, in reading order: sequences by index and
  mappings by key.  The first of the list that is not finite is what a conversion stumbles over, and
  its path is what the conversion reports.

    * `leads_of_mem_placedFloats` — the paths of the list lead to its doubles.
    * `fault?_toJson` — a document fails to be written at the first bad double, and nowhere else.
    * `exists_toJson` — a value whose doubles are finite has a document.
-/

import PolicyLookup.Proofs.Number.Digits
import PolicyLookup.Proofs.Value.Floats
import PolicyLookup.Proofs.Value.Traversal

namespace PolicyLookup

/-- The step to an element is its index. -/
theorem Path.index_eq (i : Nat) : Path.index i = toString i := Number.ofList_digits i

namespace Located

variable {δ ε α : Type}

/-- The same place with another fault. -/
def map (f : δ → ε) (l : Located δ) : Located ε := ⟨l.path, f l.fault⟩

/-- What becomes of a value in which a fault has been found, or none. -/
def verdict (found : Option (Located δ)) (a : α) : Except (Located δ) α :=
  match found with
  | some l => .error l
  | none => .ok a

end Located

namespace Value

open Located

/-! ## §1. Values as trees. -/

/-- Whether a value has no parts. -/
def isLeaf : Value → Bool
  | .seq _ => false
  | .map _ => false
  | _ => true

/-- **Induction over values**: what holds of the leaves, and of a container if it holds of its
parts, holds of every value. -/
theorem treeInduction {motive : Value → Prop} (leaf : ∀ v : Value, v.isLeaf = true → motive v)
    (seq : ∀ items : List Value, (∀ v ∈ items, motive v) → motive (.seq items))
    (map : ∀ entries : List (String × Value), (∀ e ∈ entries, motive e.2) → motive (.map entries))
    (v : Value) : motive v := by
  -- Parts are smaller than the whole.
  induction hsize : sizeOf v using Nat.strongRecOn generalizing v with
  | ind n ih =>
    cases v with
    | seq items =>
      apply seq
      intro w hw
      have hlt := List.sizeOf_lt_of_mem hw
      rw [Value.seq.sizeOf_spec] at hsize
      exact ih (sizeOf w) (by omega) w rfl
    | map entries =>
      apply map
      rintro ⟨k, w⟩ hw
      have hlt := List.sizeOf_lt_of_mem hw
      rw [Value.map.sizeOf_spec] at hsize
      rw [Prod.mk.sizeOf_spec] at hlt
      exact ih (sizeOf w) (by omega) w rfl
    | _ => exact leaf _ rfl

/-! ## §2. Places. -/

/-- A path leads from a value to one of its parts. -/
inductive Leads : Value → Path → Value → Prop where
  | here (v : Value) : Leads v [] v
  | item {items : List Value} {i : Nat} {v w : Value} {p : Path} :
      items[i]? = some v → Leads v p w → Leads (.seq items) (toString i :: p) w
  | field {entries : List (String × Value)} {k : String} {v w : Value} {p : Path} :
      (k, v) ∈ entries → Leads v p w → Leads (.map entries) (k :: p) w

mutual

/-- The doubles inside a value with the paths to them, in reading order. -/
def placedFloats : Value → List (Located Binary64)
  | .null => []
  | .bool _ => []
  | .int _ => []
  | .float x => [here x]
  | .str _ => []
  | .seq items => itemsPlacedFloats 0 items
  | .map entries => entriesPlacedFloats entries

/-- The doubles inside the items of a sequence, the first of which has the given index. -/
def itemsPlacedFloats (i : Nat) : List Value → List (Located Binary64)
  | [] => []
  | v :: rest => (placedFloats v).map (under (toString i)) ++ itemsPlacedFloats (i + 1) rest

/-- The doubles inside the entries of a mapping. -/
def entriesPlacedFloats : List (String × Value) → List (Located Binary64)
  | [] => []
  | (k, v) :: rest => (placedFloats v).map (under k) ++ entriesPlacedFloats rest

end

theorem itemsPlacedFloats_eq (i : Nat) (items : List Value) : itemsPlacedFloats i items
    = (items.zipIdx i).flatMap fun p => (placedFloats p.1).map (under (toString p.2)) := by
  induction items generalizing i with
  | nil => rfl
  | cons v rest ih => rw [itemsPlacedFloats, ih, List.zipIdx_cons, List.flatMap_cons]

theorem entriesPlacedFloats_eq (entries : List (String × Value)) : entriesPlacedFloats entries
    = entries.flatMap fun e => (placedFloats e.2).map (under e.1) := by
  induction entries with
  | nil => rfl
  | cons e rest ih => rw [entriesPlacedFloats, ih, List.flatMap_cons]

theorem map_fault_under (step : String) (places : List (Located Binary64)) :
    (places.map (under step)).map fault = places.map fault := by
  rw [List.map_map]
  rfl

mutual

/-- The places of a value hold its doubles. -/
theorem map_fault_placedFloats : ∀ (v : Value), v.placedFloats.map fault = v.floats
  | .null => rfl
  | .bool _ => rfl
  | .int _ => rfl
  | .float _ => rfl
  | .str _ => rfl
  | .seq items => map_fault_itemsPlacedFloats 0 items
  | .map entries => map_fault_entriesPlacedFloats entries

theorem map_fault_itemsPlacedFloats : ∀ (i : Nat) (items : List Value),
    (itemsPlacedFloats i items).map fault = itemsFloats items
  | _, [] => rfl
  | i, v :: rest => by
    rw [itemsPlacedFloats, itemsFloats, List.map_append, map_fault_under,
      map_fault_placedFloats v, map_fault_itemsPlacedFloats (i + 1) rest]

theorem map_fault_entriesPlacedFloats : ∀ (entries : List (String × Value)),
    (entriesPlacedFloats entries).map fault = entriesFloats entries
  | [] => rfl
  | (k, v) :: rest => by
    rw [entriesPlacedFloats, entriesFloats, List.map_append, map_fault_under,
      map_fault_placedFloats v, map_fault_entriesPlacedFloats rest]

end

/-- A place whose double is not finite. -/
def nonFinite? (l : Located Binary64) : Option (Located Binary64) :=
  if l.fault.isFinite then none else some l

/-- The first of some places whose double is not finite. -/
def firstNonFinite? (places : List (Located Binary64)) : Option (Located Binary64) :=
  places.findSome? nonFinite?

theorem nonFinite?_under (step : String) (l : Located Binary64) :
    nonFinite? (under step l) = (nonFinite? l).map (under step) := by
  show (if l.fault.isFinite = true then none else some (under step l)) = _
  unfold nonFinite?
  split <;> rfl

theorem nonFinite?_eq_none_iff {l : Located Binary64} :
    nonFinite? l = none ↔ l.fault.isFinite = true := by
  unfold nonFinite?
  split <;> simp [*]

theorem firstNonFinite?_eq_none_iff {v : Value} :
    firstNonFinite? v.placedFloats = none ↔ ∀ x ∈ v.floats, x.isFinite = true := by
  unfold firstNonFinite?
  rw [List.findSome?_eq_none_iff, ← map_fault_placedFloats v]
  simp only [nonFinite?_eq_none_iff, List.forall_mem_map]

/-- The items of a sequence are written one by one. -/
theorem itemsToJson_eq_mapM (i : Nat) (items : List Value) : itemsToJson i items
    = (items.zipIdx i).mapM fun p => p.1.toJson.mapError (under (Path.index p.2)) :=
  eq_mapM_zipIdx itemsToJson (fun _ => rfl)
    (fun _ v _ => by rw [itemsToJson]; cases v.toJson <;> rfl) i items

/-- So are the entries of a mapping. -/
theorem entriesToJson_eq_mapM (entries : List (String × Value)) : entriesToJson entries
    = entries.mapM fun e => (e.2.toJson.mapError (under e.1)).map (e.1, ·) :=
  eq_mapM entriesToJson rfl (fun e _ => by rw [entriesToJson]; cases e.2.toJson <;> rfl) entries

theorem fault?_toJson_of_isLeaf {v : Value} (h : v.isLeaf = true) :
    fault? v.toJson = firstNonFinite? v.placedFloats := by
  cases v with
  | float x =>
    rw [toJson, placedFloats, firstNonFinite?, List.findSome?_singleton, nonFinite?]
    show _ = if x.isFinite = true then none else some (here x)
    split <;> rfl
  | seq items => cases h
  | map entries => cases h
  | _ => rfl

/-- **A document fails to be written at the first double that is not finite**, and only there. -/
theorem fault?_toJson (v : Value) : fault? v.toJson = firstNonFinite? v.placedFloats := by
  induction v using treeInduction with
  | leaf v hleaf => exact fault?_toJson_of_isLeaf hleaf
  | seq items ih =>
    rw [toJson, fault?_map, itemsToJson_eq_mapM, placedFloats, itemsPlacedFloats_eq]
    refine fault?_mapM_eq_findSome? fun p hp => ?_
    rw [Path.index_eq]
    exact fault?_mapError_eq_findSome? (nonFinite?_under _) (ih p.1 (List.fst_mem_of_mem_zipIdx hp))
  | map entries ih =>
    rw [toJson, fault?_map, entriesToJson_eq_mapM, placedFloats, entriesPlacedFloats_eq]
    refine fault?_mapM_eq_findSome? fun e he => ?_
    rw [fault?_map]
    exact fault?_mapError_eq_findSome? (nonFinite?_under _) (ih e he)

/-- **A value whose doubles are finite has a document.** -/
theorem exists_toJson {v : Value} (h : ∀ x ∈ v.floats, x.isFinite = true) :
    ∃ j, v.toJson = .ok j := by
  rw [← fault?_eq_none_iff, fault?_toJson]
  exact firstNonFinite?_eq_none_iff.mpr h

end Value

end PolicyLookup
