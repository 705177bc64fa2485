/-
  PolicyLookup.Proofs.Store.Matching — filters, and what is decoded from a document.

  A filter is made of a mapping, so its integers have 64 bits.  The store compares a field with it as
  stored values: integers of both widths as numbers if the field itself is one, and by their type
  everywhere inside an array or a document.  Decoding does not know two widths.  So a filter selects
  a document exactly if what is decoded from the document has the keys of the filter with equal
  values, and no 32-bit integer stands inside one of these fields.

    * `same_ofValue_iff` — equality of stored values against equality of what is decoded.
    * `get?_of_decode` — the keys of what is decoded.
    * `selects_ofMapping_iff` — filters.
    * `not_selects_decoded` — a document that the filter of its own field does not select.
-/

import PolicyLookup.Proofs.Bson.Leaves
import PolicyLookup.Proofs.Term.Stored
import PolicyLookup.Proofs.Value.Equality
import PolicyLookup.Store.Memory

namespace PolicyLookup

namespace Bson

/-! ## §1. Plain values, and 32-bit integers inside them. -/

/-- A value that is made of null, booleans, strings, integers, finite doubles, arrays and documents,
each name in a document once. -/
inductive Plain : Bson → Prop where
  | null : Plain .null
  | bool (b : Bool) : Plain (.bool b)
  | str (s : String) : Plain (.str s)
  | int32 (n : Int32) : Plain (.int32 n)
  | int64 (n : Int64) : Plain (.int64 n)
  | double (x : Binary64) (h : x.isFinite = true) : Plain (.double x)
  | arr (items : List Bson) (h : ∀ b ∈ items, Plain b) : Plain (.arr items)
  | doc (fields : List (String × Bson)) (names : (fields.map Prod.fst).Nodup)
      (h : ∀ f ∈ fields, Plain f.2) : Plain (.doc fields)

/-- No steps lead to a 32-bit integer. -/
def Wide (b : Bson) : Prop := ∀ p n, ¬ b.Leads p (.int32 n)

/-- Steps into a value, at least one, lead to a 32-bit integer. -/
def NarrowInside (b : Bson) : Prop := ∃ s p n, b.Leads (s :: p) (.int32 n)

theorem wide_arr_iff {items : List Bson} : (Bson.arr items).Wide ↔ ∀ b ∈ items, b.Wide := by
  constructor
  · intro h b hb p n hleads
    obtain ⟨i, hi⟩ := List.mem_iff_getElem?.mp hb
    exact h _ n (.item hi hleads)
  · intro h p n hleads
    cases hleads with
    | item hi hleads => exact h _ (List.mem_of_getElem? hi) _ n hleads

theorem wide_doc_iff {fields : List (String × Bson)} :
    (Bson.doc fields).Wide ↔ ∀ f ∈ fields, f.2.Wide := by
  constructor
  · rintro h ⟨k, b⟩ hf p n hleads
    exact h _ n (.field hf hleads)
  · intro h p n hleads
    cases hleads with
    | field hf hleads => exact h _ hf _ n hleads

/-- A leaf of another type has no 32-bit integer. -/
theorem wide_of_isLeaf {b : Bson} (hleaf : b.isLeaf = true) (h : ∀ n, b ≠ .int32 n) : b.Wide := by
  intro p n hleads
  cases hleads with
  | here => exact h n rfl
  | item => cases hleaf
  | field => cases hleaf

/-- Nothing stands inside an integer. -/
theorem not_narrowInside_int32 (n : Int32) : ¬ (Bson.int32 n).NarrowInside := by
  rintro ⟨s, p, m, hleads⟩
  cases hleads

theorem wide_iff_not_narrowInside {b : Bson} (h : ∀ n, b ≠ .int32 n) :
    b.Wide ↔ ¬ b.NarrowInside := by
  constructor
  · rintro hwide ⟨s, p, n, hleads⟩
    exact hwide _ n hleads
  · intro hnone p n hleads
    cases p with
    | nil =>
      cases hleads
      exact h n rfl
    | cons s p => exact hnone ⟨s, p, n, hleads⟩

/-- **Plain values can be decoded.** -/
theorem Plain.exists_toValue {b : Bson} (h : b.Plain) : ∃ v, b.toValue = .ok v := by
  induction h with
  | double x hx => exact ⟨.float x, if_pos hx⟩
  | arr items _ ih =>
    obtain ⟨vs, hvs⟩ := exists_forall₂_iff.mpr ih
    exact ⟨.seq vs, map_eq_ok_iff.mpr ⟨vs, (toValues_eq_ok_iff 0).mpr hvs, rfl⟩⟩
  | doc fields _ _ ih =>
    have hparts : ∀ f ∈ fields, ∃ e : String × Value, f.1 = e.1 ∧ f.2.toValue = .ok e.2 := by
      intro f hf
      obtain ⟨v, hv⟩ := ih f hf
      exact ⟨(f.1, v), rfl, hv⟩
    obtain ⟨entries, hentries⟩ := exists_forall₂_iff.mpr hparts
    exact ⟨.map (Keyed.ofList entries),
      map_eq_ok_iff.mpr ⟨entries, toEntries_eq_ok_iff.mpr hentries, rfl⟩⟩
  | _ => exact ⟨_, rfl⟩

/-! ## §2. Equality of stored values. -/

theorem get?_ofEntries (m : Mapping) (k : String) :
    Document.get? (ofEntries m) k = (Keyed.get? m k).map ofValue := by
  induction m with
  | nil => rfl
  | cons e rest ih =>
    obtain ⟨k', v⟩ := e
    rw [ofEntries, Document.get?, Keyed.get?, ih]
    split <;> rfl

theorem ofEntries_eq_map (m : Mapping) : ofEntries m = m.map fun e => (e.1, ofValue e.2) := by
  induction m with
  | nil => rfl
  | cons e rest ih =>
    obtain ⟨k, v⟩ := e
    rw [ofEntries, List.map_cons, ih]

/-- Every field is found among the others, with an equal value. -/
theorem sameFields_iff {fields : List (String × Bson)} {others : Document} :
    sameFields fields others = true ↔
      ∀ f ∈ fields, ∃ c, others.get? f.1 = some c ∧ f.2.same c = true := by
  induction fields with
  | nil => simp [sameFields]
  | cons f rest ih =>
    obtain ⟨k, b⟩ := f
    rw [sameFields, Bool.and_eq_true, ih, List.forall_mem_cons]
    refine and_congr_left fun _ => ?_
    cases others.get? k with
    | none => simp
    | some c => simp

/-- An array equals the stored form of a sequence if the items do, one by one. -/
theorem sameItems_ofValues_iff {items : List Bson}
    (h : ∀ b ∈ items, ∀ v w, b.toValue = .ok v → w.Ordered →
      (b.same (ofValue w) = true ↔ v.same w = true ∧ b.Wide)) {vs ws : List Value}
    (hvs : List.Forall₂ (fun b v => b.toValue = .ok v) items vs) (hws : ∀ w ∈ ws, w.Ordered) :
    sameItems items (ofValues ws) = true ↔
      Value.sameItems vs ws = true ∧ ∀ b ∈ items, b.Wide := by
  induction hvs generalizing ws with
  | nil => cases ws <;> simp [ofValues, sameItems, Value.sameItems]
  | @cons b v items vs hb _ ih =>
    cases ws with
    | nil => simp [ofValues, sameItems, Value.sameItems]
    | cons w ws =>
      obtain ⟨hw, hws⟩ := List.forall_mem_cons.mp hws
      rw [ofValues, sameItems, Value.sameItems, Bool.and_eq_true, Bool.and_eq_true,
        h b (.head _) v w hb hw, ih (fun b' hb' => h b' (.tail _ hb')) hws, List.forall_mem_cons]
      exact and_and_and_comm

/-- Fields are found in the stored form of a mapping, with equal values, if what is decoded from
them is found in the mapping. -/
theorem found_ofEntries_iff {fields : List (String × Bson)}
    (h : ∀ f ∈ fields, ∀ v w, f.2.toValue = .ok v → w.Ordered →
      (f.2.same (ofValue w) = true ↔ v.same w = true ∧ f.2.Wide)) {entries : List (String × Value)}
    (hentries : List.Forall₂ (fun f e => f.1 = e.1 ∧ f.2.toValue = .ok e.2) fields entries)
    {m : Mapping} (hm : ∀ e ∈ m, e.2.Ordered) :
    (∀ f ∈ fields, ∃ c, Document.get? (ofEntries m) f.1 = some c ∧ f.2.same c = true) ↔
      (∀ e ∈ entries, ∃ w, Keyed.get? m e.1 = some w ∧ e.2.same w = true) ∧
        ∀ f ∈ fields, f.2.Wide := by
  induction hentries with
  | nil => exact ⟨fun _ => ⟨nofun, nofun⟩, fun _ => nofun⟩
  | @cons f e fields entries hfe _ ih =>
    obtain ⟨hkey, hvalue⟩ := hfe
    have hhead : (∃ c, Document.get? (ofEntries m) f.1 = some c ∧ f.2.same c = true) ↔
        (∃ w, Keyed.get? m e.1 = some w ∧ e.2.same w = true) ∧ f.2.Wide := by
      rw [get?_ofEntries, hkey]
      cases hget : Keyed.get? m e.1 with
      | none => simp
      | some w =>
        have hw : w.Ordered := hm _ (Keyed.mem_of_get? hget)
        simpa using h f (.head _) e.2 w hvalue hw
    rw [List.forall_mem_cons, List.forall_mem_cons, List.forall_mem_cons, hhead,
      ih fun f' hf' => h f' (.tail _ hf')]
    exact and_and_and_comm

/-- A document equals the stored form of a mapping if what is decoded from it does. -/
theorem sameFields_ofEntries_iff {fields : List (String × Bson)}
    (names : (fields.map Prod.fst).Nodup)
    (h : ∀ f ∈ fields, ∀ v w, f.2.toValue = .ok v → w.Ordered →
      (f.2.same (ofValue w) = true ↔ v.same w = true ∧ f.2.Wide)) {entries : List (String × Value)}
    (hentries : toEntries fields = .ok entries) {m : Mapping} (hm : (Value.map m).Ordered) :
    (fields.length = m.length ∧ sameFields fields (ofEntries m) = true) ↔
      Value.sameEntries (Keyed.ofList entries) m = true ∧ ∀ f ∈ fields, f.2.Wide := by
  obtain ⟨hascending, hordered⟩ := hm
  -- Decoding puts the fields in order, which neither the sizes nor the look-ups depend on.
  have hpairs := toEntries_eq_ok_iff.mp hentries
  have hperm : (Keyed.ofList entries).Perm entries :=
    Keyed.perm_ofList (map_fst_of_toEntries hentries ▸ names)
  rw [Value.sameEntries_iff (Keyed.ascending_ofList entries) hascending, hperm.length_eq,
    ← hpairs.length_eq, sameFields_iff,
    found_ofEntries_iff h hpairs (Value.entriesOrdered_iff.mp hordered), ← and_assoc]
  simp only [hperm.mem_iff]

/-- **Equality of stored values against equality of what is decoded.**  A plain value equals the
stored form of a native value exactly if what is decoded from it does, and it has no 32-bit
integer. -/
theorem same_ofValue_iff {b : Bson} (hplain : b.Plain) : ∀ v w : Value, b.toValue = .ok v →
    w.Ordered → (b.same (ofValue w) = true ↔ v.same w = true ∧ b.Wide) := by
  induction hplain with
  | int32 n =>
    intro v w hv _
    have hnarrow : ¬ (Bson.int32 n).Wide := fun h => h [] n (.here _)
    cases w <;> simp [ofValue, same, hnarrow]
  | double x hx =>
    intro v w hv _
    rw [toValue, if_pos hx] at hv
    cases hv
    refine Iff.trans ?_ (and_iff_left (wide_of_isLeaf rfl (by nofun))).symm
    cases w <;> simp [ofValue, same, Value.same]
  | arr items _ ih =>
    intro v w hv hw
    obtain ⟨vs, hvs, rfl⟩ := map_eq_ok_iff.mp hv
    rw [wide_arr_iff]
    cases w with
    | seq ws =>
      exact sameItems_ofValues_iff ih ((toValues_eq_ok_iff 0).mp hvs) (Value.allOrdered_iff.mp hw)
    | _ => simp [ofValue, same, Value.same]
  | doc fields names _ ih =>
    intro v w hv hw
    obtain ⟨entries, hentries, rfl⟩ := map_eq_ok_iff.mp hv
    rw [wide_doc_iff]
    cases w with
    | map m =>
      rw [ofValue, same, Value.same, Bool.and_eq_true, beq_iff_eq, ofEntries_eq_map,
        List.length_map, ← ofEntries_eq_map]
      exact sameFields_ofEntries_iff names ih hentries hw
    | _ => simp [ofValue, same, Value.same]
  | _ =>
    intro v w hv _
    refine Iff.trans ?_ (and_iff_left (wide_of_isLeaf rfl (by nofun))).symm
    cases hv
    cases w <;> simp [ofValue, same, Value.same]

end Bson

/-! ## §3. Look-ups in what is decoded. -/

namespace Document

open Bson

/-- Fields are looked up as the entries of a mapping are. -/
theorem get?_eq (d : Document) (k : String) : d.get? k = Keyed.get? d k := by
  induction d with
  | nil => rfl
  | cons f rest ih =>
    obtain ⟨k', b⟩ := f
    rw [get?, Keyed.get?, ih]

/-- The first entry under a key has the value of the first field with this name. -/
theorem get?_of_toEntries {d : Document} {entries : List (String × Value)}
    (h : toEntries d = .ok entries) {k : String} {v : Value} :
    Keyed.get? entries k = some v ↔ ∃ b, d.get? k = some b ∧ b.toValue = .ok v := by
  induction toEntries_eq_ok_iff.mp h with
  | nil => simp [Keyed.get?, get?]
  | @cons f e fields entries hfe hrest ih =>
    obtain ⟨k', b⟩ := f
    obtain ⟨k'', v'⟩ := e
    obtain ⟨rfl, hb⟩ : k' = k'' ∧ b.toValue = .ok v' := hfe
    rw [Keyed.get?, get?]
    split
    · simp [hb]
    · exact ih (toEntries_eq_ok_iff.mpr hrest)

/-- **The keys of what is decoded**: a key has the value of what the document has under it. -/
theorem get?_of_decode {d : Document} {m : Mapping} (names : (d.map Prod.fst).Nodup)
    (h : d.decode = .ok m) {k : String} {v : Value} :
    Keyed.get? m k = some v ↔ ∃ b, d.get? k = some b ∧ b.toValue = .ok v := by
  obtain ⟨entries, hentries, rfl⟩ := map_eq_ok_iff.mp (decode_eq_ok_iff.mp h)
  have hnodup : (entries.map Prod.fst).Nodup := map_fst_of_toEntries hentries ▸ names
  have hsorted := Keyed.nodup_of_ascending (Keyed.ascending_ofList entries)
  rw [Keyed.get?_eq_some_iff hsorted, (Keyed.perm_ofList hnodup).mem_iff,
    ← Keyed.get?_eq_some_iff hnodup, get?_of_toEntries hentries]

end Document

/-! ## §4. Filters. -/

namespace MemoryStore

open Bson

/-- A field against a native value: equality as numbers only if nothing stands inside it. -/
theorem sameField_ofValue_iff {b : Bson} (hplain : b.Plain) {v w : Value} (hv : b.toValue = .ok v)
    (hw : w.Ordered) :
    sameField b (ofValue w) = true ↔ v.same w = true ∧ ¬ b.NarrowInside := by
  by_cases hnarrow : ∃ n, b = .int32 n
  · obtain ⟨n, rfl⟩ := hnarrow
    refine Iff.trans ?_ (and_iff_left (not_narrowInside_int32 n)).symm
    cases hv
    cases w with
    -- This is the comparison as numbers, and decoding widens in the same way.
    | int e =>
      have hwiden : (Int64.ofInt n.toInt).toInt = n.toInt := Int32.toInt_toInt64 n
      rw [ofValue, sameField, Value.same, decide_eq_true_iff, decide_eq_true_iff, ← Int64.toInt_inj,
        hwiden]
    | _ => simp [ofValue, sameField, same, Value.same]
  · have hne : ∀ n, b ≠ .int32 n := not_exists.mp hnarrow
    have hsame : sameField b (ofValue w) = b.same (ofValue w) := by
      cases b <;> cases w <;> first | rfl | exact absurd rfl (hne _)
    rw [hsame, same_ofValue_iff hplain v w hv hw, wide_iff_not_narrowInside hne]

/-- A plain document has what an entry of a filter asks for. -/
theorem selectsEntry_iff {d : Document} {m : Mapping} (hplain : (Bson.doc d).Plain)
    (h : d.decode = .ok m) {e : String × Value} (hordered : e.2.Ordered) :
    selects [(e.1, ofValue e.2)] d = true ↔
      (∃ v, Keyed.get? m e.1 = some v ∧ v.same e.2 = true) ∧
        ∀ b, d.get? e.1 = some b → ¬ b.NarrowInside := by
  obtain ⟨k, w⟩ := e
  cases hplain with
  | doc _ names hparts =>
    simp only [Document.get?_of_decode names h, selects, List.all_cons, List.all_nil, Bool.and_true]
    cases hget : d.get? k with
    | none => simp
    | some b =>
      rw [Document.get?_eq] at hget
      have hb : b.Plain := hparts (k, b) (Keyed.mem_of_get? hget)
      obtain ⟨v, hv⟩ := hb.exists_toValue
      simp [hv, sameField_ofValue_iff hb hv hordered]

theorem selects_ofMapping {f : Mapping} {d : Document} : selects (.ofMapping f) d = true ↔
    ∀ e ∈ f, selects [(e.1, ofValue e.2)] d = true := by
  unfold selects Document.ofMapping
  rw [ofEntries_eq_map, List.all_map, List.all_eq_true]
  simp

/-- **What a filter selects.**  A plain document can be decoded.  The filter of a mapping selects it
exactly if what is decoded has every key of the mapping with an equal value, and no 32-bit integer
stands inside one of these fields.  So a filter of entries of what is decoded selects the document
exactly if no 32-bit integer stands inside these fields. -/
theorem selects_ofMapping_iff {d : Document} {f : Mapping} (hplain : (Bson.doc d).Plain)
    (hordered : (Value.map f).Ordered) : ∃ m, d.decode = .ok m ∧
      (selects (.ofMapping f) d = true ↔ ∀ e ∈ f,
        (∃ v, Keyed.get? m e.1 = some v ∧ v.same e.2 = true) ∧
          ∀ b, d.get? e.1 = some b → ¬ b.NarrowInside) ∧
      ((∀ e ∈ f, e ∈ m) → (selects (.ofMapping f) d = true ↔ ∀ e ∈ f,
        ∀ b, d.get? e.1 = some b → ¬ b.NarrowInside)) := by
  obtain ⟨v, hv⟩ := hplain.exists_toValue
  obtain ⟨entries, hentries, rfl⟩ := map_eq_ok_iff.mp hv
  have hdecode : d.decode = .ok (Keyed.ofList entries) :=
    Document.decode_eq_ok_iff.mpr (map_eq_ok_iff.mpr ⟨entries, hentries, rfl⟩)
  have hparts := Value.entriesOrdered_iff.mp hordered.2
  have hselects : selects (.ofMapping f) d = true ↔ ∀ e ∈ f,
      (∃ v, Keyed.get? (Keyed.ofList entries) e.1 = some v ∧ v.same e.2 = true) ∧
        ∀ b, d.get? e.1 = some b → ¬ b.NarrowInside := by
    rw [selects_ofMapping]
    exact forall₂_congr fun e he => selectsEntry_iff hplain hdecode (hparts e he)
  refine ⟨_, hdecode, hselects, fun hsub => ?_⟩
  rw [hselects]
  refine forall₂_congr fun e he => and_iff_right ⟨e.2, ?_, ?_⟩
  · have hnodup := Keyed.nodup_of_ascending (Keyed.ascending_ofList entries)
    exact (Keyed.get?_eq_some_iff hnodup).mpr (hsub e he)
  · have hfinite := (Document.ordered_and_finite_of_decode hdecode).2
    refine Value.same_self e.2 fun x hx => hfinite x ?_
    exact Value.mem_entriesFloats.mpr ⟨e, hsub e he, hx⟩

/-- A document with a 32-bit integer in a field, and one inside an array. -/
def basket : Document := [("stock", .int32 3), ("sizes", .arr [.int32 40]), ("name", .str "shoe")]

/-- What is decoded from it. -/
def basketMapping : Mapping :=
  [("name", .str "shoe"), ("sizes", .seq [.int 40]), ("stock", .int 3)]

theorem plain_basket : (Bson.doc basket).Plain := by
  refine .doc _ (by decide) ?_
  simp only [basket, List.forall_mem_cons]
  refine ⟨.int32 3, .arr _ ?_, .str "shoe", nofun⟩
  simpa using Bson.Plain.int32 40

theorem selects_ofMapping_iff_basket : (Bson.doc basket).Plain ∧
    (Value.map [("name", .str "shoe"), ("stock", .int 3)]).Ordered ∧
    selects (.ofMapping [("name", .str "shoe"), ("stock", .int 3)]) basket = true := by
  have hordered : (Value.map [("name", .str "shoe"), ("stock", .int 3)]).Ordered := by
    refine ⟨?_, trivial, trivial, trivial⟩
    unfold Keyed.Ascending
    decide
  refine ⟨plain_basket, hordered, ?_⟩
  obtain ⟨m, hm, -, hown⟩ := selects_ofMapping_iff plain_basket hordered
  have hdecode : basket.decode = .ok basketMapping := rfl
  obtain rfl : basketMapping = m := Except.ok.inj (hdecode.symm.trans hm)
  refine (hown ?_).mpr ?_
  · simp [basketMapping]
  · simp only [List.forall_mem_cons]
    refine ⟨fun b hb => ?_, fun b hb => ?_, nofun⟩
    · cases hb
      rintro ⟨s, p, n, hleads⟩
      cases hleads
    · cases hb
      exact not_narrowInside_int32 3

/-- **Not every document is selected by the filter of its own field**: the integer in the array has
32 bits in the store and 64 in the filter. -/
theorem not_selects_decoded : ¬ ∀ (d : Document) (f m : Mapping), (Bson.doc d).Plain →
    (Value.map f).Ordered → (∀ x ∈ Value.entriesFloats f, x.isFinite = true) → d.decode = .ok m →
    (selects (.ofMapping f) d = true ↔
      ∀ e ∈ f, ∃ v, Keyed.get? m e.1 = some v ∧ v.same e.2 = true) := by
  intro hall
  have hordered : (Value.map [("sizes", .seq [.int 40])]).Ordered :=
    ⟨List.pairwise_singleton _ _, ⟨trivial, trivial⟩, trivial⟩
  have hiff := hall basket [("sizes", .seq [.int 40])] basketMapping plain_basket hordered nofun rfl
  have hselected := hiff.mpr (List.forall_mem_singleton.mpr ⟨_, rfl, by decide⟩)
  exact absurd hselected (by decide)

end MemoryStore

end PolicyLookup
