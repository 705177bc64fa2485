/-
  PolicyLookup.Proofs.Bson.FieldOrder — the order of fields does not matter.

  A document has its fields in an order of its own, and a mapping has its keys in ascending order.
  Documents that differ in the order of fields only, their own or those of a document somewhere
  inside, are decoded alike: both have a mapping or neither has one, and it is the same.  A document
  that cannot be decoded may well be reported with another field first.

    * `Reordered` — values that differ in the order of fields only.
    * `Keyed.ofList_eq_of_perm` — distinct keys make a mapping in whatever order they come.
    * `Reordered.toValue_eq_ok_iff` — values at every depth.
    * `Document.decode_reordered` — documents.
-/

import PolicyLookup.Proofs.Store.Matching

namespace PolicyLookup

/-! ## §1. Lists in another order. -/

/-- **Distinct keys make one mapping**, in whatever order they come. -/
theorem Keyed.ofList_eq_of_perm {α : Type} {entries others : List (String × α)}
    (h : entries.Perm others) (hnodup : (entries.map Prod.fst).Nodup) :
    ofList entries = ofList others := by
  have hperm : (ofList entries).Perm (ofList others) :=
    ((perm_ofList hnodup).trans h).trans (perm_ofList ((h.map Prod.fst).nodup hnodup)).symm
  refine hperm.eq_of_pairwise ?_ (ascending_ofList entries) (ascending_ofList others)
  intro a b _ _ hab hba
  exact absurd (String.lt_trans hab hba) (String.lt_irrefl a.1)

/-- Of two members with the same partners either may stand in a list. -/
theorem forall₂_replace_iff {α β : Type} {R : α → β → Prop} {a a' : α}
    (h : ∀ b, R a b ↔ R a' b) (before after : List α) (bs : List β) :
    List.Forall₂ R (before ++ a :: after) bs ↔ List.Forall₂ R (before ++ a' :: after) bs := by
  induction before generalizing bs with
  | nil => simp only [List.nil_append, List.forall₂_cons_left_iff, h]
  | cons x before ih => simp only [List.cons_append, List.forall₂_cons_left_iff, ih]

namespace Bson

/-! ## §2. Values in another order. -/

/-- Stored values that differ in the order of fields only: the fields of a document have been put in
another order, or the same has been done to something inside, any number of times. -/
inductive Reordered : Bson → Bson → Prop where
  | refl (b : Bson) : Reordered b b
  | perm {fields others : List (String × Bson)} (h : fields.Perm others) :
      Reordered (.doc fields) (.doc others)
  | item {b c : Bson} (before after : List Bson) (h : Reordered b c) :
      Reordered (.arr (before ++ b :: after)) (.arr (before ++ c :: after))
  | field {b c : Bson} (before after : List (String × Bson)) (k : String) (h : Reordered b c) :
      Reordered (.doc (before ++ (k, b) :: after)) (.doc (before ++ (k, c) :: after))
  | scope {fields others : List (String × Bson)} (source : String)
      (h : Reordered (.doc fields) (.doc others)) :
      Reordered (.scopedCode source fields) (.scopedCode source others)
  | trans {a b c : Bson} (h : Reordered a b) (h' : Reordered b c) : Reordered a c

/-- Every document that steps lead to has each of its names once. -/
def NamesDistinct (b : Bson) : Prop :=
  ∀ p fields, b.Leads p (.doc fields) → (fields.map Prod.fst).Nodup

theorem namesDistinct_arr_iff {items : List Bson} :
    (Bson.arr items).NamesDistinct ↔ ∀ b ∈ items, b.NamesDistinct := by
  constructor
  · intro h b hb p fields hleads
    obtain ⟨i, hi⟩ := List.mem_iff_getElem?.mp hb
    exact h _ fields (.item hi hleads)
  · intro h p fields hleads
    cases hleads with
    | item hi hleads => exact h _ (List.mem_of_getElem? hi) _ fields hleads

theorem namesDistinct_doc_iff {fields : List (String × Bson)} :
    (Bson.doc fields).NamesDistinct ↔
      (fields.map Prod.fst).Nodup ∧ ∀ f ∈ fields, f.2.NamesDistinct := by
  constructor
  · intro h
    refine ⟨h [] fields (.here _), ?_⟩
    rintro ⟨k, b⟩ hf p others hleads
    exact h _ others (.field hf hleads)
  · rintro ⟨hnodup, hparts⟩ p others hleads
    cases hleads with
    | here => exact hnodup
    | field hf hleads => exact hparts _ hf _ others hleads

/-- A value without parts has no documents. -/
theorem namesDistinct_of_isLeaf {b : Bson} (h : b.isLeaf = true) : b.NamesDistinct := by
  intro p fields hleads
  cases hleads with
  | here => cases h
  | item => cases h
  | field => cases h

variable {b c : Bson}

/-- Names stay distinct in another order. -/
theorem Reordered.namesDistinct (h : Reordered b c) (hnames : b.NamesDistinct) :
    c.NamesDistinct := by
  induction h with
  | refl b => exact hnames
  | perm hperm =>
    obtain ⟨hnodup, hparts⟩ := namesDistinct_doc_iff.mp hnames
    exact namesDistinct_doc_iff.mpr
      ⟨(hperm.map Prod.fst).nodup hnodup, fun f hf => hparts f (hperm.mem_iff.mpr hf)⟩
  | item before after _ ih =>
    rw [namesDistinct_arr_iff, List.forall_mem_append, List.forall_mem_cons] at hnames ⊢
    obtain ⟨hbefore, hb, hafter⟩ := hnames
    exact ⟨hbefore, ih hb, hafter⟩
  | field before after k _ ih =>
    rw [namesDistinct_doc_iff, List.forall_mem_append, List.forall_mem_cons] at hnames ⊢
    obtain ⟨hnodup, hbefore, hb, hafter⟩ := hnames
    rw [List.map_append, List.map_cons] at hnodup ⊢
    exact ⟨hnodup, hbefore, ih hb, hafter⟩
  | scope => exact namesDistinct_of_isLeaf rfl
  | trans _ _ ih ih' => exact ih' (ih hnames)

/-! ## §3. Decoding. -/

theorem decode_eq_ok_iff {v : Value} : b.decode = .ok v ↔ b.toValue = .ok v :=
  mapError_eq_ok_iff

/-- What a document is decoded to, field by field. -/
theorem toValue_doc_eq_ok_iff {fields : List (String × Bson)} {v : Value} :
    (Bson.doc fields).toValue = .ok v ↔ ∃ entries,
      List.Forall₂ (fun f e => f.1 = e.1 ∧ f.2.toValue = .ok e.2) fields entries ∧
        v = .map (Keyed.ofList entries) := by
  simp only [toValue, map_eq_ok_iff, toEntries_eq_ok_iff]

/-- Fields in another order have the same mapping. -/
theorem toValue_doc_of_perm {fields others : List (String × Bson)} (h : fields.Perm others)
    (hnodup : (fields.map Prod.fst).Nodup) {v : Value} (hv : (Bson.doc fields).toValue = .ok v) :
    (Bson.doc others).toValue = .ok v := by
  obtain ⟨entries, hentries, rfl⟩ := toValue_doc_eq_ok_iff.mp hv
  obtain ⟨entries', hentries', hperm⟩ := List.perm_comp_forall₂ h.symm hentries
  have hkeys := map_fst_of_toEntries (toEntries_eq_ok_iff.mpr hentries)
  refine toValue_doc_eq_ok_iff.mpr ⟨entries', hentries', ?_⟩
  rw [Keyed.ofList_eq_of_perm hperm.symm (hkeys ▸ hnodup)]

/-- **The order of fields does not matter to a value**, at any depth. -/
theorem Reordered.toValue_eq_ok_iff (h : Reordered b c) (hnames : b.NamesDistinct) :
    ∀ v, b.toValue = .ok v ↔ c.toValue = .ok v := by
  induction h with
  | refl b => exact fun _ => .rfl
  | perm hperm =>
    intro v
    have hnodup := (namesDistinct_doc_iff.mp hnames).1
    exact ⟨toValue_doc_of_perm hperm hnodup,
      toValue_doc_of_perm hperm.symm ((hperm.map Prod.fst).nodup hnodup)⟩
  | item before after _ ih =>
    intro v
    have hb := namesDistinct_arr_iff.mp hnames _ (List.mem_append_right _ (.head _))
    simp only [toValue, map_eq_ok_iff, Bson.toValues_eq_ok_iff]
    refine exists_congr fun vs => and_congr_left' (forall₂_replace_iff ?_ before after vs)
    exact ih hb
  | field before after k _ ih =>
    intro v
    have hb := (namesDistinct_doc_iff.mp hnames).2 _ (List.mem_append_right _ (.head _))
    simp only [toValue_doc_eq_ok_iff]
    refine exists_congr fun entries => and_congr_left' (forall₂_replace_iff ?_ before after entries)
    exact fun e => and_congr_right' (ih hb e.2)
  | scope source _ _ => exact fun v => ⟨nofun, nofun⟩
  | trans h _ ih ih' => exact fun v => (ih hnames v).trans (ih' (h.namesDistinct hnames) v)

end Bson

/-! ## §4. Documents. -/

namespace Document

open Bson

variable {d e : Document}

theorem decode_eq_ok_iff_toValue {m : Mapping} :
    d.decode = .ok m ↔ (Bson.doc d).toValue = .ok (.map m) := by
  rw [decode_eq_ok_iff, toMapping, toValue, map_eq_ok_iff, map_eq_ok_iff]
  simp only [Value.map.injEq]

/-- A document has a mapping exactly if each of its fields can be decoded. -/
theorem hasMapping_iff : d.HasMapping ↔ ∀ f ∈ d, ∃ v, f.2.decode = .ok v := by
  have hparts : (∀ f ∈ d, ∃ v, f.2.decode = .ok v) ↔
      ∀ f ∈ d, ∃ e : String × Value, f.1 = e.1 ∧ f.2.toValue = .ok e.2 := by
    refine forall₂_congr fun f _ => ?_
    simp only [Bson.decode_eq_ok_iff]
    exact ⟨fun ⟨v, hv⟩ => ⟨(f.1, v), rfl, hv⟩, fun ⟨e, _, he⟩ => ⟨e.2, he⟩⟩
  rw [hparts, ← exists_forall₂_iff]
  unfold HasMapping
  simp only [decode_eq_ok_iff_toValue, toValue_doc_eq_ok_iff, Value.map.injEq]
  exact ⟨fun ⟨_, entries, hentries, _⟩ => ⟨entries, hentries⟩,
    fun ⟨entries, hentries⟩ => ⟨_, entries, hentries, rfl⟩⟩

/-- A mapping has the keys of its document. -/
theorem perm_keys_of_decode {m : Mapping} (hnodup : (d.map Prod.fst).Nodup)
    (h : d.decode = .ok m) : (m.map Prod.fst).Perm (d.map Prod.fst) := by
  obtain ⟨entries, hentries, rfl⟩ := map_eq_ok_iff.mp (decode_eq_ok_iff.mp h)
  have hkeys := map_fst_of_toEntries hentries
  rw [← hkeys]
  exact (Keyed.perm_ofList (hkeys ▸ hnodup)).map Prod.fst

/-- **The order of fields does not matter to decoding.**  Of two documents that differ in the order
of fields only, their own or those of a document inside, both have a mapping or neither has one, and
it is the same.  There is one exactly if the value of each field can be decoded; it has the keys of
the document, each once and in ascending order, and under a key what is decoded from the document's
value there. -/
theorem decode_reordered (hnames : (Bson.doc d).NamesDistinct)
    (h : (Bson.doc d).Reordered (.doc e)) :
    (d.HasMapping ↔ e.HasMapping) ∧
    (∀ m, d.decode = .ok m ↔ e.decode = .ok m) ∧
    (d.HasMapping ↔ ∀ f ∈ d, ∃ v, f.2.decode = .ok v) ∧
    ∀ m, d.decode = .ok m → Keyed.Ascending m ∧ (m.map Prod.fst).Perm (d.map Prod.fst) ∧
      ∀ k v, Keyed.get? m k = some v ↔ ∃ b, d.get? k = some b ∧ b.decode = .ok v := by
  have hsame : ∀ m, d.decode = .ok m ↔ e.decode = .ok m := by
    intro m
    rw [decode_eq_ok_iff_toValue, decode_eq_ok_iff_toValue]
    exact h.toValue_eq_ok_iff hnames (.map m)
  have hnodup := (namesDistinct_doc_iff.mp hnames).1
  refine ⟨exists_congr hsame, hsame, hasMapping_iff, ?_⟩
  intro m hm
  refine ⟨?_, perm_keys_of_decode hnodup hm, ?_⟩
  · obtain ⟨entries, -, rfl⟩ := map_eq_ok_iff.mp (decode_eq_ok_iff.mp hm)
    exact Keyed.ascending_ofList entries
  · intro k v
    simp only [get?_of_decode hnodup hm, Bson.decode_eq_ok_iff]

/-- An item of an invoice. -/
def pen : List (String × Bson) := [("name", .str "pen"), ("count", .int64 2)]

/-- The same item with its fields in another order. -/
def penTurned : List (String × Bson) := [("count", .int64 2), ("name", .str "pen")]

/-- An invoice with the item in an array. -/
def invoice : Document := [("total", .int32 7), ("items", .arr [.doc pen, .null])]

/-- The same invoice with its fields, and those of the item, in another order. -/
def invoiceTurned : Document := [("items", .arr [.doc penTurned, .null]), ("total", .int32 7)]

theorem namesDistinct_invoice : (Bson.doc invoice).NamesDistinct := by
  have hpen : (Bson.doc pen).NamesDistinct :=
    namesDistinct_doc_iff.mpr ⟨by decide, List.forall_mem_cons.mpr
      ⟨namesDistinct_of_isLeaf rfl, List.forall_mem_singleton.mpr (namesDistinct_of_isLeaf rfl)⟩⟩
  have hitems : (Bson.arr [.doc pen, .null]).NamesDistinct :=
    namesDistinct_arr_iff.mpr (List.forall_mem_cons.mpr
      ⟨hpen, List.forall_mem_singleton.mpr (namesDistinct_of_isLeaf rfl)⟩)
  exact namesDistinct_doc_iff.mpr ⟨by decide, List.forall_mem_cons.mpr
    ⟨namesDistinct_of_isLeaf rfl, List.forall_mem_singleton.mpr hitems⟩⟩

theorem reordered_invoice : (Bson.doc invoice).Reordered (.doc invoiceTurned) := by
  have hpen : (Bson.doc pen).Reordered (.doc penTurned) := .perm (.swap _ _ _)
  have hitems : (Bson.arr [.doc pen, .null]).Reordered (.arr [.doc penTurned, .null]) :=
    .item [] [.null] hpen
  exact .trans (.field [("total", .int32 7)] [] "items" hitems) (.perm (.swap _ _ _))

theorem decode_reordered_invoice : (Bson.doc invoice).NamesDistinct ∧
    (Bson.doc invoice).Reordered (.doc invoiceTurned) ∧
    ∃ m, invoice.decode = .ok m ∧ invoiceTurned.decode = .ok m ∧
      Keyed.get? m "total" = some (.int 7) := by
  have hdecode : invoice.decode = .ok [
      ("items", .seq [.map [("count", .int 2), ("name", .str "pen")], .null]),
      ("total", .int 7)] := rfl
  obtain ⟨-, hsame, -⟩ := decode_reordered namesDistinct_invoice reordered_invoice
  exact ⟨namesDistinct_invoice, reordered_invoice, _, hdecode, (hsame _).mp hdecode, rfl⟩

end Document

end PolicyLookup
