/-
  PolicyLookup.Proofs.Bson.Leaves — which leaf of an answer cannot be decoded, and where it is.

  The leaves of a stored value are listed in document order, each with the steps that lead to it.
  Decoding fails at the first leaf of the list that has a defect and nowhere else.  The text of its
  place is made of the steps, joined with dots; as long as no field name has a dot of its own, the
  steps can be read off the text again.

    * `intercalate_child`, `split_intercalate` — joining steps, and splitting them again.
    * `mem_leaves_iff` — the list has all leaves, with the routes to them.
    * `complaint?_eq` — what is said of a leaf, spelled out.
    * `fault?_toValue` — decoding fails at the first defect.
    * `decodeAll_first_bad_leaf` — documents.
-/

import PolicyLookup.Proofs.Bson.Decoding
import PolicyLookup.Proofs.Number.Digits
import PolicyLookup.Proofs.Value.Places

namespace PolicyLookup

/-! ## §1. Texts of paths. -/

namespace Path

/-- The steps of a text, between its dots. -/
def split (text : String) : List String := (text.split '.').toList.map fun step => step.copy

theorem toString_ne_empty (i : Nat) : toString i ≠ "" := by
  rw [Nat.toString_eq_ofList_toDigits]
  intro h
  rw [String.ofList_eq_empty_iff] at h
  exact Nat.toDigits_ne_nil h

/-- An index is written with digits. -/
theorem dot_not_mem_toString (i : Nat) : '.' ∉ (toString i).toList := by
  rw [Nat.toString_eq_ofList_toDigits, String.toList_ofList]
  intro h
  exact absurd (Nat.isDigit_of_mem_toDigits (by decide) (by decide) h) (by decide)

theorem child_of_ne_empty {parent : String} (h : parent ≠ "") (field : String) :
    child parent field = parent ++ "." ++ field := by
  unfold child
  rw [if_neg]
  rw [String.isEmpty_iff]
  exact h

theorem child_ne_empty {parent : String} (h : parent ≠ "") (field : String) :
    child parent field ≠ "" := by
  rw [child_of_ne_empty h]
  simp [h]

theorem foldl_child_ne_empty {parent : String} (h : parent ≠ "") (steps : List String) :
    steps.foldl child parent ≠ "" := by
  induction steps generalizing parent with
  | nil => exact h
  | cons step rest ih => exact ih (child_ne_empty h step)

/-- Below a step that is not empty the steps are joined with dots. -/
theorem intercalate_child {parent : String} (h : parent ≠ "") (steps : List String) :
    steps.foldl child parent = ".".intercalate (parent :: steps) := by
  induction steps generalizing parent with
  | nil => rw [List.foldl_nil, String.intercalate_singleton]
  | cons step rest ih =>
    rw [List.foldl_cons, ih (child_ne_empty h step), child_of_ne_empty h,
      String.intercalate_cons_append, String.intercalate_cons_of_ne_nil (List.cons_ne_nil _ _)]

/-- **The steps can be read off the text of a path**, if there are any and none of them has a
dot. -/
theorem split_intercalate {steps : List String} (h : steps ≠ [])
    (hsteps : ∀ step ∈ steps, '.' ∉ step.toList) : split (".".intercalate steps) = steps := by
  have hsplit := String.toList_split_intercalate hsteps
  rw [if_neg h] at hsplit
  exact hsplit

end Path

namespace Bson

open Located

/-! ## §2. Leaves. -/

/-- One step into a stored value. -/
inductive Step where
  | field (name : String)
  | item (index : Nat)

/-- The text of a step. -/
def Step.text : Step → String
  | .field name => name
  | .item i => toString i

/-- A part of a stored value and the steps that lead to it. -/
structure Placed where
  route : List Step
  leaf : Bson

/-- The same part, seen from one step further up. -/
def Placed.under (step : Step) (l : Placed) : Placed := ⟨step :: l.route, l.leaf⟩

/-- Steps lead from a stored value to one of its parts. -/
inductive Leads : Bson → List Step → Bson → Prop where
  | here (b : Bson) : Leads b [] b
  | item {items : List Bson} {i : Nat} {b c : Bson} {p : List Step} :
      items[i]? = some b → Leads b p c → Leads (.arr items) (.item i :: p) c
  | field {fields : List (String × Bson)} {k : String} {b c : Bson} {p : List Step} :
      (k, b) ∈ fields → Leads b p c → Leads (.doc fields) (.field k :: p) c

/-- Whether a stored value has no parts. -/
def isLeaf : Bson → Bool
  | .arr _ => false
  | .doc _ => false
  | _ => true

/-- **Induction over stored values**: what holds of the leaves, and of a container if it holds of
its parts, holds of every stored value. -/
theorem treeInduction {motive : Bson → Prop} (leaf : ∀ b : Bson, b.isLeaf = true → motive b)
    (arr : ∀ items : List Bson, (∀ b ∈ items, motive b) → motive (.arr items))
    (doc : ∀ fields : List (String × Bson), (∀ k b, (k, b) ∈ fields → motive b) →
      motive (.doc fields)) (b : Bson) : motive b := by
  -- Parts are smaller than the whole.
  induction hsize : sizeOf b using Nat.strongRecOn generalizing b with
  | ind n ih =>
    by_cases hleaf : b.isLeaf = true
    · exact leaf b hleaf
    · cases b with
      | arr items =>
        apply arr
        intro c hc
        have hlt := List.sizeOf_lt_of_mem hc
        rw [Bson.arr.sizeOf_spec] at hsize
        exact ih (sizeOf c) (by omega) c rfl
      | doc fields =>
        apply doc
        intro k c hc
        have hlt := List.sizeOf_lt_of_mem hc
        rw [Bson.doc.sizeOf_spec] at hsize
        rw [Prod.mk.sizeOf_spec] at hlt
        exact ih (sizeOf c) (by omega) c rfl
      | _ => exact absurd rfl hleaf

mutual

/-- The leaves of a stored value in document order. -/
def leaves : Bson → List Placed
  | .arr items => itemsLeaves 0 items
  | .doc fields => fieldsLeaves fields
  | b => [⟨[], b⟩]

/-- The leaves of an array's elements, the first of which has the given index. -/
def itemsLeaves (i : Nat) : List Bson → List Placed
  | [] => []
  | b :: rest => (leaves b).map (.under (.item i)) ++ itemsLeaves (i + 1) rest

/-- The leaves of the fields of a document. -/
def fieldsLeaves : List (String × Bson) → List Placed
  | [] => []
  | (k, b) :: rest => (leaves b).map (.under (.field k)) ++ fieldsLeaves rest

end

theorem leaves_of_isLeaf {b : Bson} (h : b.isLeaf = true) : b.leaves = [⟨[], b⟩] := by
  cases b with
  | arr items => cases h
  | doc fields => cases h
  | _ => rfl

theorem itemsLeaves_eq (i : Nat) (items : List Bson) : itemsLeaves i items
    = (items.zipIdx i).flatMap fun p => (leaves p.1).map (.under (.item p.2)) := by
  induction items generalizing i with
  | nil => rfl
  | cons b rest ih => rw [itemsLeaves, ih, List.zipIdx_cons, List.flatMap_cons]

theorem fieldsLeaves_eq (fields : List (String × Bson)) : fieldsLeaves fields
    = fields.flatMap fun f => (leaves f.2).map (.under (.field f.1)) := by
  induction fields with
  | nil => rfl
  | cons f rest ih => rw [fieldsLeaves, ih, List.flatMap_cons]

variable {l : Placed}

theorem mem_itemsLeaves {items : List Bson} : l ∈ itemsLeaves 0 items ↔
    ∃ (i : Nat) (b : Bson), items[i]? = some b ∧ ∃ l' ∈ b.leaves, l'.under (.item i) = l := by
  rw [itemsLeaves_eq, mem_flatMap_zipIdx]
  simp only [List.mem_map]

theorem mem_fieldsLeaves {fields : List (String × Bson)} : l ∈ fieldsLeaves fields ↔
    ∃ f ∈ fields, ∃ l' ∈ f.2.leaves, l'.under (.field f.1) = l := by
  rw [fieldsLeaves_eq, List.mem_flatMap]
  simp only [List.mem_map]

/-- Every leaf that steps lead to is in the list. -/
theorem mem_leaves_of_leads {b c : Bson} {p : List Step} (h : b.Leads p c)
    (hleaf : c.isLeaf = true) : ⟨p, c⟩ ∈ b.leaves := by
  induction h with
  | here b =>
    rw [leaves_of_isLeaf hleaf]
    exact List.mem_singleton_self _
  | @item items i b c p hb _ ih =>
    rw [leaves, mem_itemsLeaves]
    exact ⟨i, b, hb, ⟨p, c⟩, ih hleaf, rfl⟩
  | @field fields k b c p hb _ ih =>
    rw [leaves, mem_fieldsLeaves]
    exact ⟨(k, b), hb, ⟨p, c⟩, ih hleaf, rfl⟩

/-- The route to a leaf of the list leads to it. -/
theorem leads_of_mem_leaves {b : Bson} (h : l ∈ b.leaves) :
    b.Leads l.route l.leaf ∧ l.leaf.isLeaf = true := by
  induction b using treeInduction generalizing l with
  | leaf b hleaf =>
    rw [leaves_of_isLeaf hleaf] at h
    obtain rfl := List.mem_singleton.mp h
    exact ⟨.here b, hleaf⟩
  | arr items ih =>
    rw [leaves, mem_itemsLeaves] at h
    obtain ⟨i, b, hb, l', hl', rfl⟩ := h
    obtain ⟨hleads, hleaf⟩ := ih b (List.mem_of_getElem? hb) hl'
    exact ⟨.item hb hleads, hleaf⟩
  | doc fields ih =>
    rw [leaves, mem_fieldsLeaves] at h
    obtain ⟨⟨k, b⟩, hb, l', hl', rfl⟩ := h
    obtain ⟨hleads, hleaf⟩ := ih k b hb hl'
    exact ⟨.field hb hleads, hleaf⟩

/-- **The list has all leaves of a stored value**, each with the route to it. -/
theorem mem_leaves_iff {b : Bson} :
    l ∈ b.leaves ↔ b.Leads l.route l.leaf ∧ l.leaf.isLeaf = true := by
  constructor
  · exact leads_of_mem_leaves
  · rintro ⟨hleads, hleaf⟩
    exact mem_leaves_of_leads hleads hleaf

/-! ## §3. Defects. -/

/-- What keeps a leaf from being decoded: it is a double that is not finite, a date without a text,
or of a type that has no native value. -/
def defect? : Bson → Option Defect
  | .double x => if x.isFinite then none else some (.nonFinite x)
  | .date ms => if Calendar.isRepresentable ms.toInt then none else some (.dateOutOfRange ms)
  | .binary _ => some (.unsupported "Binary")
  | .decimal128 _ => some (.unsupported "Decimal128")
  | .regex _ _ => some (.unsupported "RegularExpression")
  | .code _ => some (.unsupported "JavaScriptCode")
  | .scopedCode _ _ => some (.unsupported "JavaScriptCodeWithScope")
  | .timestamp _ _ => some (.unsupported "Timestamp")
  | .symbol _ => some (.unsupported "Symbol")
  | .dbPointer _ _ => some (.unsupported "DbPointer")
  | .minKey => some (.unsupported "MinKey")
  | .maxKey => some (.unsupported "MaxKey")
  | .undefined => some (.unsupported "Undefined")
  | _ => none

/-- Only leaves have defects. -/
theorem defect?_of_not_isLeaf {b : Bson} (h : b.isLeaf = false) : b.defect? = none := by
  cases b with
  | arr items => rfl
  | doc fields => rfl
  | _ => cases h

/-- The defect of a leaf with the texts of the steps to it. -/
def Placed.defect? (l : Placed) : Option (Located Defect) :=
  l.leaf.defect?.map fun δ => ⟨l.route.map Step.text, δ⟩

theorem Placed.defect?_under (step : Step) (l : Placed) :
    (l.under step).defect? = l.defect?.map (Located.under step.text) := by
  show Option.map _ l.leaf.defect? = Option.map _ (Option.map _ l.leaf.defect?)
  rw [Option.map_map]
  rfl

/-- The first defect among some leaves. -/
def firstDefect? (places : List Placed) : Option (Located Defect) :=
  places.findSome? Placed.defect?

/-- What is said of a leaf that cannot be decoded. -/
def complaint? : Bson → Option String
  | .double x =>
    if x.isNaN then some "non-finite double NaN"
    else if x = .infinity true then some "non-finite double -inf"
    else if x = .infinity false then some "non-finite double inf"
    else none
  | .date ms =>
    if -8334601228800000 ≤ ms.toInt ∧ ms.toInt ≤ 8210266876799999 then none
    else some s!"datetime {ms.toInt}ms is outside the representable range"
  | .binary _ => some "unsupported store type Binary"
  | .decimal128 _ => some "unsupported store type Decimal128"
  | .regex _ _ => some "unsupported store type RegularExpression"
  | .code _ => some "unsupported store type JavaScriptCode"
  | .scopedCode _ _ => some "unsupported store type JavaScriptCodeWithScope"
  | .timestamp _ _ => some "unsupported store type Timestamp"
  | .symbol _ => some "unsupported store type Symbol"
  | .dbPointer _ _ => some "unsupported store type DbPointer"
  | .minKey => some "unsupported store type MinKey"
  | .maxKey => some "unsupported store type MaxKey"
  | .undefined => some "unsupported store type Undefined"
  | _ => none

theorem complaint?_double (x : Binary64) :
    complaint? (.double x) = (defect? (.double x)).map Defect.message := by
  rw [complaint?, defect?]
  cases hfinite : x.isFinite with
  | true =>
    have hnan := Binary64.isNaN_of_isFinite hfinite
    have hne : ∀ negative, x ≠ .infinity negative := by
      rintro negative rfl
      cases hfinite
    rw [hnan, if_neg Bool.false_ne_true, if_neg (hne true), if_neg (hne false), if_pos rfl]
    rfl
  | false =>
    rw [if_neg Bool.false_ne_true]
    show _ = some ("non-finite double " ++ x.specialName)
    unfold Binary64.specialName
    cases hnan : x.isNaN with
    | true => rfl
    | false =>
      rw [Binary64.eq_infinity hfinite hnan]
      cases x.negative <;> rfl

/-- **What is said of a leaf is the message of its defect.** -/
theorem complaint?_eq (b : Bson) : b.complaint? = b.defect?.map Defect.message := by
  cases b with
  | double x => exact complaint?_double x
  | date ms =>
    have hrange : Calendar.isRepresentable ms.toInt = true ↔
        -8334601228800000 ≤ ms.toInt ∧ ms.toInt ≤ 8210266876799999 := by
      unfold Calendar.isRepresentable
      rw [Bool.and_eq_true, decide_eq_true_eq, decide_eq_true_eq]
    simp only [complaint?, defect?, hrange, ← Number.ofList_intDigits]
    split <;> rfl
  | _ => rfl

/-! ## §4. Decoding. -/

/-- A leaf is decoded unless it has a defect. -/
theorem fault?_toValue_of_isLeaf {b : Bson} (h : b.isLeaf = true) :
    fault? b.toValue = b.defect?.map here := by
  cases b with
  | arr items => cases h
  | doc fields => cases h
  | double x =>
    rw [toValue, defect?]
    split <;> rfl
  | date ms =>
    rw [toValue, defect?]
    split <;> rfl
  | _ => rfl

/-- **Decoding fails at the first leaf with a defect**, and nowhere else. -/
theorem fault?_toValue (b : Bson) : fault? b.toValue = firstDefect? b.leaves := by
  -- The fault of a container is that of its first part that has one, below the step to this part.
  induction b using treeInduction with
  | leaf b hleaf =>
    rw [fault?_toValue_of_isLeaf hleaf, leaves_of_isLeaf hleaf]
    show b.defect?.map here = ([⟨[], b⟩] : List Placed).findSome? Placed.defect?
    rw [List.findSome?_singleton]
    rfl
  | arr items ih =>
    rw [toValue, fault?_map, toValues_eq_mapM, leaves, itemsLeaves_eq]
    refine fault?_mapM_eq_findSome? fun p hp => ?_
    rw [Path.index_eq]
    exact fault?_mapError_eq_findSome? (Placed.defect?_under (.item p.2))
      (ih p.1 (List.fst_mem_of_mem_zipIdx hp))
  | doc fields ih =>
    rw [toValue, fault?_map, toEntries_eq_mapM, leaves, fieldsLeaves_eq]
    refine fault?_mapM_eq_findSome? fun f hf => ?_
    rw [fault?_map]
    exact fault?_mapError_eq_findSome? (Placed.defect?_under (.field f.1)) (ih f.1 f.2 hf)

/-- The entries of a document have the names of its fields. -/
theorem map_fst_of_toEntries {fields : List (String × Bson)} {entries : List (String × Value)}
    (h : toEntries fields = .ok entries) : entries.map Prod.fst = fields.map Prod.fst := by
  have hpairs := toEntries_eq_ok_iff.mp h
  clear h
  induction hpairs with
  | nil => rfl
  | cons hentry _ ih => rw [List.map_cons, List.map_cons, ih, hentry.1]

end Bson

/-! ## §5. Documents. -/

namespace Document

open Bson Located

/-- The leaves of documents: document by document, each in the order of its fields. -/
def leavesOf (ds : List Document) : List Placed := itemsLeaves 0 (ds.map Bson.doc)

/-- Documents are decoded up to the first defect among their leaves. -/
theorem fault?_toMappings (ds : List Document) :
    fault? (toMappings 0 ds) = firstDefect? (leavesOf ds) := by
  unfold leavesOf
  rw [toMappings_eq_mapM, itemsLeaves_eq, List.zipIdx_map, List.flatMap_map]
  refine fault?_mapM_eq_findSome? fun p _ => ?_
  -- A document on its own has the faults of the value that it is.
  have hd : fault? p.1.toMapping = firstDefect? (Bson.doc p.1).leaves := by
    rw [← fault?_toValue, toValue, toMapping, fault?_map, fault?_map]
  rw [Path.index_eq]
  exact fault?_mapError_eq_findSome? (Placed.defect?_under (.item p.2)) hd

/-- A leaf of documents is a leaf of one of them, below its index. -/
theorem mem_leavesOf_iff {ds : List Document} {l : Placed} : l ∈ leavesOf ds ↔
    ∃ i p d, l.route = .item i :: p ∧ ds[i]? = some d ∧ (Bson.doc d).Leads p l.leaf ∧
      l.leaf.isLeaf = true := by
  unfold leavesOf
  rw [mem_itemsLeaves]
  constructor
  · rintro ⟨i, b, hb, l', hl', rfl⟩
    rw [List.getElem?_map, Option.map_eq_some_iff] at hb
    obtain ⟨d, hd, rfl⟩ := hb
    exact ⟨i, l'.route, d, rfl, hd, mem_leaves_iff.mp hl'⟩
  · rintro ⟨i, p, d, hroute, hd, hleads⟩
    refine ⟨i, .doc d, ?_, ⟨p, l.leaf⟩, mem_leaves_iff.mpr hleads, ?_⟩
    · rw [List.getElem?_map, hd]
      rfl
    · obtain ⟨route, leaf⟩ := l
      exact congrArg (Placed.mk · leaf) hroute.symm

variable {ds : List Document} {e : Error}

/-- Documents are decoded exactly if no leaf has a defect. -/
theorem exists_decodeAll_iff_firstDefect? :
    (∃ ms, decodeAll ds = .ok ms) ↔ firstDefect? (leavesOf ds) = none := by
  unfold decodeAll
  simp only [mapError_eq_ok_iff, ← fault?_toMappings, fault?_eq_none_iff]

/-- What is reported of documents is the first defect of a leaf. -/
theorem firstDefect?_of_decodeAll (h : decodeAll ds = .error e) :
    ∃ l, firstDefect? (leavesOf ds) = some l ∧ Defect.toError l = e := by
  have hfault : fault? (decodeAll ds) = some e := fault?_eq_some_iff.mpr h
  unfold decodeAll at hfault
  rw [fault?_mapError, fault?_toMappings] at hfault
  exact Option.map_eq_some_iff.mp hfault

/-- Documents are decoded exactly if nothing is to be said of anything in them. -/
theorem exists_decodeAll_iff : (∃ ms, decodeAll ds = .ok ms) ↔
    ∀ d ∈ ds, ∀ p b, (Bson.doc d).Leads p b → b.complaint? = none := by
  rw [exists_decodeAll_iff_firstDefect?, firstDefect?, List.findSome?_eq_none_iff]
  simp only [complaint?_eq, Option.map_eq_none_iff]
  constructor
  · intro h d hd p b hleads
    cases hleaf : b.isLeaf with
    | false => exact defect?_of_not_isLeaf hleaf
    | true =>
      -- The leaf is in the list, below the index of its document.
      obtain ⟨i, hi⟩ := List.mem_iff_getElem?.mp hd
      have hnone := h ⟨.item i :: p, b⟩ (mem_leavesOf_iff.mpr ⟨i, p, d, rfl, hi, hleads, hleaf⟩)
      exact Option.map_eq_none_iff.mp hnone
  · intro h l hl
    obtain ⟨i, p, d, -, hd, hleads, -⟩ := mem_leavesOf_iff.mp hl
    exact Option.map_eq_none_iff.mpr (h d (List.mem_of_getElem? hd) p l.leaf hleads)

/-- What is reported of a defect below a document: its message, and the joined steps. -/
theorem toError_item (i : Nat) (p : List Step) (δ : Defect) :
    Defect.toError ⟨(Step.item i :: p).map Step.text, δ⟩
      = .encoding δ.message (".".intercalate (toString i :: p.map Step.text)) := by
  have hjoined : Path.joined ((Step.item i :: p).map Step.text)
      = (p.map Step.text).foldl Path.child (toString i) := rfl
  have hne : (p.map Step.text).foldl Path.child (toString i) ≠ "" :=
    Path.foldl_child_ne_empty (Path.toString_ne_empty i) _
  unfold Defect.toError Path.display
  rw [hjoined, if_neg (mt String.isEmpty_iff.mp hne),
    Path.intercalate_child (Path.toString_ne_empty i)]

/-- The steps of a route whose field names have no dots have none. -/
theorem dot_not_mem_text {p : List Step} (h : ∀ k, Step.field k ∈ p → '.' ∉ k.toList) :
    ∀ step ∈ p.map Step.text, '.' ∉ step.toList := by
  intro step hstep
  obtain ⟨s, hs, rfl⟩ := List.mem_map.mp hstep
  cases s with
  | field k => exact h k hs
  | item i => exact Path.dot_not_mem_toString i

/-- What is decoded is one mapping for each document, with its keys. -/
theorem keys_of_decodeAll {ms : List Mapping} (h : decodeAll ds = .ok ms) :
    List.Forall₂ (fun (d : Document) (m : Mapping) =>
      Keyed.Ascending m ∧ ∀ k, k ∈ m.map Prod.fst ↔ k ∈ d.map Prod.fst) ds ms := by
  refine (decodeAll_eq_ok_iff.mp h).imp ?_
  intro d m hm
  rw [decode_eq_ok_iff] at hm
  obtain ⟨entries, hentries, rfl⟩ := exists_of_map_eq_ok hm
  refine ⟨Keyed.ascending_ofList entries, ?_⟩
  intro k
  rw [Keyed.mem_keys_ofList, map_fst_of_toEntries hentries]

/-- **The reported path leads to the first bad leaf.**  Documents are decoded exactly if nothing is
to be said of a leaf at any depth.  Otherwise the error says what is to be said of the first such
leaf in document order, and its path has the steps to this leaf with dots between them, the index
of the document first; the steps can be read off the path again unless a field name among them has
a dot.  What is decoded is one mapping for each document, with the keys of the document. -/
theorem decodeAll_first_bad_leaf (ds : List Document) :
    ((∃ ms, decodeAll ds = .ok ms) ↔
      ∀ d ∈ ds, ∀ p b, (Bson.doc d).Leads p b → b.complaint? = none) ∧
    (∀ e, decodeAll ds = .error e → ∃ before after i p d b text,
      leavesOf ds = before ++ ⟨.item i :: p, b⟩ :: after ∧
      (∀ l ∈ before, l.leaf.complaint? = none) ∧ b.complaint? = some text ∧
      ds[i]? = some d ∧ (Bson.doc d).Leads p b ∧
      e = .encoding text (".".intercalate (toString i :: p.map Step.text)) ∧
      ((∀ k, Step.field k ∈ p → '.' ∉ k.toList) →
        Path.split (".".intercalate (toString i :: p.map Step.text))
          = toString i :: p.map Step.text)) ∧
    ∀ ms, decodeAll ds = .ok ms → List.Forall₂ (fun (d : Document) (m : Mapping) =>
      Keyed.Ascending m ∧ ∀ k, k ∈ m.map Prod.fst ↔ k ∈ d.map Prod.fst) ds ms := by
  refine ⟨exists_decodeAll_iff, ?_, ?_⟩
  · intro e he
    -- The first defect among the leaves is what decoding reports.
    obtain ⟨l, hfirst, rfl⟩ := firstDefect?_of_decodeAll he
    obtain ⟨before, ⟨route, b⟩, after, hleaves, hdefect, hbefore⟩ :=
      List.findSome?_eq_some_iff.mp hfirst
    obtain ⟨δ, hδ, rfl⟩ := Option.map_eq_some_iff.mp hdefect
    have hmem : ⟨route, b⟩ ∈ leavesOf ds := by
      rw [hleaves]
      exact List.mem_append_right _ List.mem_cons_self
    obtain ⟨i, p, d, hroute, hd, hleads, -⟩ := mem_leavesOf_iff.mp hmem
    obtain rfl : route = .item i :: p := hroute
    refine ⟨before, after, i, p, d, b, δ.message, hleaves, ?_, ?_, hd, hleads, toError_item i p δ,
      ?_⟩
    · intro l hl
      rw [complaint?_eq, Option.map_eq_none_iff]
      exact Option.map_eq_none_iff.mp (hbefore l hl)
    · rw [complaint?_eq, hδ]
      rfl
    · intro hnames
      exact Path.split_intercalate (List.cons_ne_nil _ _)
        (List.forall_mem_cons.mpr ⟨Path.dot_not_mem_toString i, dot_not_mem_text hnames⟩)
  · intro ms hms
    exact keys_of_decodeAll hms

/-- Two people, of whom the second has a picture. -/
def people : List Document :=
  [[("name", .str "alice")],
    [("name", .str "bob"), ("profile", .doc [("avatar", .binary ⟨0, [255]⟩)])]]

/-- **The picture is what cannot be decoded**, and the path of the error leads to it. -/
theorem decodeAll_first_bad_leaf_avatar :
    decodeAll people = .error (.encoding "unsupported store type Binary" "1.profile.avatar") ∧
    Path.split "1.profile.avatar" = ["1", "profile", "avatar"] := by
  obtain ⟨hok, herror, -⟩ := decodeAll_first_bad_leaf people
  cases h : decodeAll people with
  | ok ms =>
    have hleads : (Bson.doc [("name", .str "bob"),
        ("profile", .doc [("avatar", .binary ⟨0, [255]⟩)])]).Leads
          [.field "profile", .field "avatar"] (.binary ⟨0, [255]⟩) :=
      .field (.tail _ (.head _)) (.field (.head _) (.here _))
    cases hok.mp ⟨ms, h⟩ _ (.tail _ (.head _)) _ _ hleads
  | error e =>
    obtain ⟨before, after, i, p, d, b, text, hleaves, hbefore, htext, -, -, rfl, hsplit⟩ :=
      herror e h
    -- Of the three leaves only the last one is bad.
    obtain ⟨rfl, rfl, rfl⟩ : i = 1 ∧ p = [.field "profile", .field "avatar"] ∧
        b = .binary ⟨0, [255]⟩ := by
      rcases before with _ | ⟨l₁, _ | ⟨l₂, _ | ⟨l₃, before⟩⟩⟩
      · cases hleaves
        cases htext
      · cases hleaves
        cases htext
      · cases hleaves
        exact ⟨rfl, rfl, rfl⟩
      · have hthird : ⟨[.item 1, .field "profile", .field "avatar"], .binary ⟨0, [255]⟩⟩ = l₃ :=
          Option.some.inj (congrArg (·[2]?) hleaves)
        have hgood := hbefore l₃ (.tail _ (.tail _ (.head _)))
        rw [← hthird] at hgood
        cases hgood
    have hpath : ".".intercalate
        (toString 1 :: [Step.field "profile", .field "avatar"].map Step.text)
          = "1.profile.avatar" := by decide +kernel
    rw [hpath] at hsplit ⊢
    refine ⟨by cases htext; rfl, (hsplit ?_).trans (by decide +kernel)⟩
    intro k hk
    simp only [List.mem_cons, Step.field.injEq, List.not_mem_nil, or_false] at hk
    rcases hk with rfl | rfl <;> decide

end Document

end PolicyLookup
