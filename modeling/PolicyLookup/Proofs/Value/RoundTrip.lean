/-
  PolicyLookup.Proofs.Value.RoundTrip — values as texts and back.

  A value has two texts: the one that is written at once, and the compact text of its document,
  which it has only if all its doubles are finite.  Between the two stands `plain`, the document
  that has `null` for a double that is not finite: its compact text is the one that is written at
  once (`chars_plain`), it is the document of a value that has one (`toJson_eq_plain`), and reading
  it gives the value back (`ofJson_plain`).

    * `serializers_agree` — what is read from the text that is written, which text the document
      has, and which values have no document.
-/

import PolicyLookup.Proofs.Value.Encoding
import PolicyLookup.Proofs.Value.Places
import PolicyLookup.Term.Decoding

namespace PolicyLookup

/-- An integer of 64 bits is one. -/
theorem int64?_toInt (n : Int64) : int64? n.toInt = some n := by
  have hlow := Int64.le_toInt n
  have hhigh := Int64.toInt_lt n
  unfold int64?
  rw [if_pos (by omega), Int64.ofInt_toInt]

namespace Value

open Json

/-! ## §1. The document with `null` for doubles that are not finite. -/

/-- What is left of a double in a text. -/
def written (x : Binary64) : Value := if x.isFinite then .float x else .null

mutual

/-- The document of a value, `null` standing for doubles that are not finite. -/
def plain : Value → Json
  | .null => .null
  | .bool b => .bool b
  | .int n => .int n.toInt
  | .float x => if x.isFinite then .float x else .null
  | .str s => .str s
  | .seq items => .arr (plainItems items)
  | .map entries => .obj (plainEntries entries)

/-- The elements of a sequence. -/
def plainItems : List Value → List Json
  | [] => []
  | v :: rest => plain v :: plainItems rest

/-- The members of a mapping, in key order. -/
def plainEntries : List (String × Value) → List (String × Json)
  | [] => []
  | (k, v) :: rest => (k, plain v) :: plainEntries rest

end

mutual

/-- How deep the containers of a value are nested. -/
def depth : Value → Nat
  | .seq items => itemsDepth items + 1
  | .map entries => entriesDepth entries + 1
  | _ => 0

/-- How deep the deepest item is nested. -/
def itemsDepth : List Value → Nat
  | [] => 0
  | v :: rest => max (depth v) (itemsDepth rest)

/-- How deep the value of the deepest entry is nested. -/
def entriesDepth : List (String × Value) → Nat
  | [] => 0
  | (_, v) :: rest => max (depth v) (entriesDepth rest)

end

mutual

theorem depth_plain : ∀ (v : Value), v.plain.depth = v.depth
  | .null => rfl
  | .bool _ => rfl
  | .int _ => rfl
  | .float x => by
    rw [plain]
    split <;> rfl
  | .str _ => rfl
  | .seq items => by rw [plain, Json.depth, depth, itemsDepth_plainItems items]
  | .map entries => by rw [plain, Json.depth, depth, membersDepth_plainEntries entries]

theorem itemsDepth_plainItems : ∀ (items : List Value),
    Json.itemsDepth (plainItems items) = itemsDepth items
  | [] => rfl
  | v :: rest => by
    rw [plainItems, Json.itemsDepth, itemsDepth, depth_plain v, itemsDepth_plainItems rest]

theorem membersDepth_plainEntries : ∀ (entries : List (String × Value)),
    Json.membersDepth (plainEntries entries) = entriesDepth entries
  | [] => rfl
  | (k, v) :: rest => by
    rw [plainEntries, Json.membersDepth, entriesDepth, depth_plain v,
      membersDepth_plainEntries rest]

end

/-! ## §2. Its text. -/

theorem writeItems_cons_cons (v w : Value) (rest : List Value) :
    writeItems (v :: w :: rest) = v.writeChars ++ ',' :: writeItems (w :: rest) := rfl

theorem writeEntries_cons_cons (k : String) (v : Value) (e : String × Value)
    (rest : List (String × Value)) :
    writeEntries ((k, v) :: e :: rest)
      = quote k ++ ':' :: (v.writeChars ++ ',' :: writeEntries (e :: rest)) := rfl

mutual

/-- **Writing at once gives the text of that document.** -/
theorem chars_plain : ∀ (v : Value), v.plain.chars = v.writeChars
  | .null => rfl
  | .bool _ => rfl
  | .int _ => rfl
  | .float x => by
    rw [plain, writeChars, floatChars]
    split
    · next hx => rw [chars, floatChars, if_pos hx]
    · rfl
  | .str _ => rfl
  | .seq items => by rw [plain, chars, writeChars, itemsChars_plainItems items]
  | .map entries => by rw [plain, chars, writeChars, membersChars_plainEntries entries]

theorem itemsChars_plainItems : ∀ (items : List Value),
    itemsChars (plainItems items) = writeItems items
  | [] => rfl
  | [v] => chars_plain v
  | v :: w :: rest => by
    have hrest := itemsChars_plainItems (w :: rest)
    rw [plainItems] at hrest
    rw [plainItems, plainItems, itemsChars_cons_cons, chars_plain v, hrest, writeItems_cons_cons]

theorem membersChars_plainEntries : ∀ (entries : List (String × Value)),
    membersChars (plainEntries entries) = writeEntries entries
  | [] => rfl
  | [(k, v)] => by
    rw [plainEntries, plainEntries, membersChars, writeEntries, chars_plain v]
  | (k, v) :: (l, w) :: rest => by
    have hrest := membersChars_plainEntries ((l, w) :: rest)
    rw [plainEntries] at hrest
    rw [plainEntries, plainEntries, membersChars_cons_cons, chars_plain v, hrest,
      writeEntries_cons_cons]

end

mutual

theorem exact_plain : ∀ (v : Value), v.plain.Exact
  | .null => trivial
  | .bool _ => trivial
  | .int n => exact_int n
  | .float x => by
    rw [plain]
    split
    · next hx => exact hx
    · trivial
  | .str _ => trivial
  | .seq items => allExact_plainItems items
  | .map entries => membersExact_plainEntries entries

theorem allExact_plainItems : ∀ (items : List Value), AllExact (plainItems items)
  | [] => trivial
  | v :: rest => ⟨exact_plain v, allExact_plainItems rest⟩

theorem membersExact_plainEntries : ∀ (entries : List (String × Value)),
    MembersExact (plainEntries entries)
  | [] => trivial
  | (_, v) :: rest => ⟨exact_plain v, membersExact_plainEntries rest⟩

end

/-! ## §3. What is read from it. -/

mutual

/-- **The document is read as the value**, without the doubles that are not finite. -/
theorem ofJson_plain : ∀ (v : Value), v.Ordered → ofJson v.plain = v.mapFloats written
  | .null, _ => rfl
  | .bool _, _ => rfl
  | .int n, _ => by rw [plain, ofJson, int64?_toInt, mapFloats]
  | .float x, _ => by
    rw [plain, mapFloats, written]
    split <;> rfl
  | .str _, _ => rfl
  | .seq items, h => by rw [plain, ofJson, mapFloats, ofJsonItems_plainItems items h]
  | .map entries, h => by
    -- The members ascend as the entries do, so that none is moved or dropped.
    rw [plain, ofJson, mapFloats, ofJsonMembers_plainEntries entries h.2,
      Keyed.ofList_of_ascending (ascending_entriesMapFloats h.1)]

theorem ofJsonItems_plainItems : ∀ (items : List Value), AllOrdered items →
    ofJsonItems (plainItems items) = itemsMapFloats written items
  | [], _ => rfl
  | v :: rest, h => by
    rw [plainItems, ofJsonItems, itemsMapFloats, ofJson_plain v h.1,
      ofJsonItems_plainItems rest h.2]

theorem ofJsonMembers_plainEntries : ∀ (entries : List (String × Value)),
    EntriesOrdered entries → ofJsonMembers (plainEntries entries) = entriesMapFloats written entries
  | [], _ => rfl
  | (k, v) :: rest, h => by
    rw [plainEntries, ofJsonMembers, entriesMapFloats, ofJson_plain v h.1,
      ofJsonMembers_plainEntries rest h.2]

end

mutual

/-- A value that has a document has this one. -/
theorem toJson_eq_plain : ∀ (v : Value) {j : Json}, v.toJson = .ok j → j = v.plain
  | .null, _, h => by cases h; rfl
  | .bool _, _, h => by cases h; rfl
  | .int _, _, h => by cases h; rfl
  | .float x, _, h => by
    obtain ⟨rfl, hx⟩ := toJson_float_eq_ok h
    rw [plain, if_pos hx]
  | .str _, _, h => by cases h; rfl
  | .seq items, _, h => by
    obtain ⟨js, rfl, hitems⟩ := toJson_seq_eq_ok h
    rw [plain, itemsToJson_eq_plainItems items hitems]
  | .map entries, _, h => by
    obtain ⟨members, rfl, hentries⟩ := toJson_map_eq_ok h
    rw [plain, entriesToJson_eq_plainEntries entries hentries]

theorem itemsToJson_eq_plainItems : ∀ (items : List Value) {i : Nat} {js : List Json},
    itemsToJson i items = .ok js → js = plainItems items
  | [], _, _, h => by cases h; rfl
  | v :: rest, _, _, h => by
    obtain ⟨j, js, rfl, hv, hrest⟩ := itemsToJson_cons_eq_ok h
    rw [plainItems, toJson_eq_plain v hv, itemsToJson_eq_plainItems rest hrest]

theorem entriesToJson_eq_plainEntries : ∀ (entries : List (String × Value))
    {members : List (String × Json)}, entriesToJson entries = .ok members →
      members = plainEntries entries
  | [], _, h => by cases h; rfl
  | (k, v) :: rest, _, h => by
    obtain ⟨j, members, rfl, hv, hrest⟩ := entriesToJson_cons_eq_ok h
    rw [plainEntries, toJson_eq_plain v hv, entriesToJson_eq_plainEntries rest hrest]

end

/-! ## §4. Both texts, and the way back. -/

/-- The value that a text denotes, if it is JSON. -/
def ofText? (text : String) : Option Value := (Json.ofText? text).map ofJson

variable {v : Value}

theorem compact_plain (v : Value) : v.plain.compact = v.write := by
  unfold compact write
  rw [chars_plain]

/-- **The text of a value is read as the value**, if it is not nested too deep. -/
theorem ofText?_write (hv : v.Ordered) (hdepth : v.depth ≤ depthLimit) :
    ofText? v.write = some (v.mapFloats written) := by
  unfold ofText?
  rw [← compact_plain, ofText?_compact (exact_plain v) (by rw [depth_plain]; exact hdepth),
    Option.map_some, ofJson_plain v hv]

/-- The document of a value has the text of the value. -/
theorem compact_of_toJson {j : Json} (h : v.toJson = .ok j) : j.compact = v.write := by
  rw [toJson_eq_plain v h, compact_plain]

/-- A value has no document if and only if one of its doubles is not finite. -/
theorem exists_error_iff :
    (∃ e, v.encodeJson = .error e) ↔ ∃ x ∈ v.floats, x.isFinite = false := by
  have hfinite : (∃ x ∈ v.floats, x.isFinite = false) ↔ fault? v.toJson ≠ none := by
    rw [fault?_toJson, ne_eq, firstNonFinite?_eq_none_iff]
    simp
  rw [hfinite]
  unfold encodeJson
  cases v.toJson with
  | error l => simp [Except.mapError, fault?]
  | ok j => simp [Except.mapError, fault?]

/-- **The two texts of a value agree, and the value can be read from them.**  What is read from the
text that is written at once is the value with `null` for its doubles that are not finite.  Without
such doubles the compact text of the document is the same text, and with one of them there is no
document. -/
theorem serializers_agree :
    (∀ v : Value, v.Ordered → v.depth ≤ 127 → ofText? v.write = some (v.mapFloats written)) ∧
    (∀ v : Value, (∀ x ∈ v.floats, x.isFinite = true) →
      ∃ j, v.encodeJson = .ok j ∧ j.compact = v.write) ∧
    (∀ v : Value, (∃ e, v.encodeJson = .error e) ↔ ∃ x ∈ v.floats, x.isFinite = false) := by
  refine ⟨?_, ?_, ?_⟩
  · intro v hv hdepth
    exact ofText?_write hv hdepth
  · intro v hfinite
    obtain ⟨j, hj⟩ := exists_toJson hfinite
    refine ⟨j, ?_, compact_of_toJson hj⟩
    unfold encodeJson
    rw [hj]
    rfl
  · intro v
    exact exists_error_iff

/-- A zero with a sign and a double that is no number, beside an integer, below a key that has to be
escaped. -/
theorem serializers_agree_signed_zero :
    let negativeZero := Binary64.ofBits 0x8000000000000000
    let v : Value := .map [("a\"\n", .seq [.float negativeZero, .int 0]),
      ("b", .float (Binary64.ofBits 0x7ff8000000000000))]
    ofText? v.write = some (.map [("a\"\n", .seq [.float negativeZero, .int 0]), ("b", .null)]) :=
  serializers_agree.1 _
    ⟨by unfold Keyed.Ascending; decide, ⟨trivial, trivial, trivial⟩, trivial, trivial⟩ (by decide)

end Value

end PolicyLookup
