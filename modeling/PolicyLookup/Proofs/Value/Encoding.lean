/-
  PolicyLookup.Proofs.Value.Encoding — values and their documents.

  A value that has a document can be restored from it, constructor by constructor: integers and
  doubles are kept apart, and the entries of a mapping stay where they are.  So no two values have
  the same document, and with exact documents no two have the same text.

    * `restore_toJson` — restoring undoes encoding.
    * `exact_toJson` — documents of values have integers of 64 bits and finite doubles.
    * `itemsToJson_text_injective` — the text of a sequence's document determines the sequence.
-/

import PolicyLookup.Proofs.Json.RoundTrip
import PolicyLookup.Proofs.Value.Traversal
import PolicyLookup.Value.Encoding

namespace PolicyLookup

namespace Value

open Json

/-! ## §1. Restoring values. -/

mutual

/-- The value that has a given document, if there is one. -/
def restore : Json → Value
  | .null => .null
  | .bool b => .bool b
  | .int n => .int (Int64.ofInt n)
  | .float x => .float x
  | .str s => .str s
  | .arr items => .seq (restoreItems items)
  | .obj members => .map (restoreMembers members)

/-- The elements of a sequence. -/
def restoreItems : List Json → List Value
  | [] => []
  | j :: rest => restore j :: restoreItems rest

/-- The entries of a mapping, in the order of the members. -/
def restoreMembers : List (String × Json) → List (String × Value)
  | [] => []
  | (k, j) :: rest => (k, restore j) :: restoreMembers rest

end

/-- A sequence has a document if each of its elements has one. -/
theorem itemsToJson_cons_eq_ok {i : Nat} {v : Value} {rest : List Value} {js : List Json}
    (h : itemsToJson i (v :: rest) = .ok js) :
    ∃ j js', js = j :: js' ∧ v.toJson = .ok j ∧ itemsToJson (i + 1) rest = .ok js' := by
  rw [itemsToJson] at h
  cases hv : v.toJson with
  | error l =>
    rw [hv] at h
    cases h
  | ok j =>
    rw [hv] at h
    obtain ⟨js', hrest, rfl⟩ := exists_of_map_eq_ok h
    exact ⟨j, js', rfl, rfl, hrest⟩

/-- A mapping has a document if each of its values has one. -/
theorem entriesToJson_cons_eq_ok {k : String} {v : Value} {rest : List (String × Value)}
    {members : List (String × Json)} (h : entriesToJson ((k, v) :: rest) = .ok members) :
    ∃ j members', members = (k, j) :: members' ∧ v.toJson = .ok j
      ∧ entriesToJson rest = .ok members' := by
  rw [entriesToJson] at h
  cases hv : v.toJson with
  | error l =>
    rw [hv] at h
    cases h
  | ok j =>
    rw [hv] at h
    obtain ⟨members', hrest, rfl⟩ := exists_of_map_eq_ok h
    exact ⟨j, members', rfl, rfl, hrest⟩

/-- The document of a sequence is an array. -/
theorem toJson_seq_eq_ok {items : List Value} {j : Json} (h : (Value.seq items).toJson = .ok j) :
    ∃ js, j = .arr js ∧ itemsToJson 0 items = .ok js := by
  rw [toJson] at h
  obtain ⟨js, hitems, rfl⟩ := exists_of_map_eq_ok h
  exact ⟨js, rfl, hitems⟩

/-- The document of a mapping is an object. -/
theorem toJson_map_eq_ok {entries : List (String × Value)} {j : Json}
    (h : (Value.map entries).toJson = .ok j) :
    ∃ members, j = .obj members ∧ entriesToJson entries = .ok members := by
  rw [toJson] at h
  obtain ⟨members, hentries, rfl⟩ := exists_of_map_eq_ok h
  exact ⟨members, rfl, hentries⟩

/-- The document of a double is that double, and it is finite. -/
theorem toJson_float_eq_ok {x : Binary64} {j : Json} (h : (Value.float x).toJson = .ok j) :
    j = .float x ∧ x.isFinite = true := by
  rw [toJson] at h
  split at h
  · next hx => exact ⟨(Except.ok.inj h).symm, hx⟩
  · cases h

mutual

/-- **Restoring undoes encoding.** -/
theorem restore_toJson : ∀ (v : Value) {j : Json}, v.toJson = .ok j → restore j = v
  | .null, _, h => by cases h; rfl
  | .bool _, _, h => by cases h; rfl
  | .int n, _, h => by
    cases h
    rw [restore, Int64.ofInt_toInt]
  | .float x, _, h => by
    obtain ⟨rfl, -⟩ := toJson_float_eq_ok h
    rfl
  | .str _, _, h => by cases h; rfl
  | .seq items, _, h => by
    obtain ⟨js, rfl, hitems⟩ := toJson_seq_eq_ok h
    rw [restore, restoreItems_itemsToJson items hitems]
  | .map entries, _, h => by
    obtain ⟨members, rfl, hentries⟩ := toJson_map_eq_ok h
    rw [restore, restoreMembers_entriesToJson entries hentries]

theorem restoreItems_itemsToJson : ∀ (items : List Value) {i : Nat} {js : List Json},
    itemsToJson i items = .ok js → restoreItems js = items
  | [], _, _, h => by cases h; rfl
  | v :: rest, _, _, h => by
    obtain ⟨j, js, rfl, hv, hrest⟩ := itemsToJson_cons_eq_ok h
    rw [restoreItems, restore_toJson v hv, restoreItems_itemsToJson rest hrest]

theorem restoreMembers_entriesToJson : ∀ (entries : List (String × Value))
    {members : List (String × Json)}, entriesToJson entries = .ok members →
      restoreMembers members = entries
  | [], _, h => by cases h; rfl
  | (k, v) :: rest, _, h => by
    obtain ⟨j, members, rfl, hv, hrest⟩ := entriesToJson_cons_eq_ok h
    rw [restoreMembers, restore_toJson v hv, restoreMembers_entriesToJson rest hrest]

end

/-! ## §2. Documents of values are exact. -/

theorem exact_int (n : Int64) : Exact (.int n.toInt) := by
  have hlow := Int64.le_toInt n
  have hhigh := Int64.toInt_lt n
  exact ⟨by omega, by omega⟩

mutual

/-- **Documents of values are exact**: their integers fit 64 bits, their doubles are finite. -/
theorem exact_toJson : ∀ (v : Value) {j : Json}, v.toJson = .ok j → j.Exact
  | .null, _, h => by cases h; trivial
  | .bool _, _, h => by cases h; trivial
  | .int n, _, h => by
    cases h
    exact exact_int n
  | .float x, _, h => by
    obtain ⟨rfl, hx⟩ := toJson_float_eq_ok h
    exact hx
  | .str _, _, h => by cases h; trivial
  | .seq items, _, h => by
    obtain ⟨js, rfl, hitems⟩ := toJson_seq_eq_ok h
    exact allExact_itemsToJson items hitems
  | .map entries, _, h => by
    obtain ⟨members, rfl, hentries⟩ := toJson_map_eq_ok h
    exact membersExact_entriesToJson entries hentries

theorem allExact_itemsToJson : ∀ (items : List Value) {i : Nat} {js : List Json},
    itemsToJson i items = .ok js → AllExact js
  | [], _, _, h => by cases h; trivial
  | v :: rest, _, _, h => by
    obtain ⟨j, js, rfl, hv, hrest⟩ := itemsToJson_cons_eq_ok h
    exact ⟨exact_toJson v hv, allExact_itemsToJson rest hrest⟩

theorem membersExact_entriesToJson : ∀ (entries : List (String × Value))
    {members : List (String × Json)}, entriesToJson entries = .ok members → MembersExact members
  | [], _, h => by cases h; trivial
  | (k, v) :: rest, _, h => by
    obtain ⟨j, members, rfl, hv, hrest⟩ := entriesToJson_cons_eq_ok h
    exact ⟨exact_toJson v hv, membersExact_entriesToJson rest hrest⟩

end

/-! ## §3. Texts of values. -/

/-- **The text of a sequence's document determines the sequence.** -/
theorem itemsToJson_text_injective {items items' : List Value} {i i' : Nat} {js js' : List Json}
    (h : itemsToJson i items = .ok js) (h' : itemsToJson i' items' = .ok js')
    (htext : (Json.arr js).chars = (Json.arr js').chars) : items = items' := by
  have hexact : Exact (.arr js) := allExact_itemsToJson items h
  have hexact' : Exact (.arr js') := allExact_itemsToJson items' h'
  obtain rfl : js = js' := Json.arr.inj (chars_injective hexact hexact' htext)
  rw [← restoreItems_itemsToJson items h, restoreItems_itemsToJson items' h']

end Value

end PolicyLookup
