/-
  PolicyLookup.Proofs.Term.Parts — the parts of a term in reading order.

  Parts are the values inside a term, the term itself first, and the keys of the objects among them.
  Nothing inside a key is a part.  The items of an array or a set come one after another, and so do
  the pairs of an object, each key before what is under it.  Decoding stumbles over the first part
  that has no native value, and over nothing else.

    * `mem_parts_iff` — what the parts are, in whatever order.
    * `complaint?_eq` — what is said of a part, spelled out.
    * `fault?_toValue` — the defect of the first bad part is reported.
    * `isNative_iff` — a term without a bad part has a native value.
-/

import PolicyLookup.Proofs.Number.Digits
import PolicyLookup.Proofs.Term.Native

namespace PolicyLookup

namespace Term

/-! ## §1. Terms as trees. -/

/-- Whether a term has no parts but itself. -/
def isLeaf : Term → Bool
  | .arr _ => false
  | .set _ => false
  | .obj _ => false
  | _ => true

/-- **Induction over terms**: what holds of the leaves, and of a container if it holds of the values
in it, holds of every term. -/
theorem treeInduction {motive : Term → Prop} (leaf : ∀ t : Term, t.isLeaf = true → motive t)
    (arr : ∀ items : List Term, (∀ t ∈ items, motive t) → motive (.arr items))
    (set : ∀ items : List Term, (∀ t ∈ items, motive t) → motive (.set items))
    (obj : ∀ pairs : List (Term × Term), (∀ p ∈ pairs, motive p.2) → motive (.obj pairs))
    (t : Term) : motive t := by
  -- Parts are smaller than the whole.
  induction hsize : sizeOf t using Nat.strongRecOn generalizing t with
  | ind n ih =>
    cases t with
    | arr items =>
      apply arr
      intro u hu
      have hlt := List.sizeOf_lt_of_mem hu
      rw [Term.arr.sizeOf_spec] at hsize
      exact ih (sizeOf u) (by omega) u rfl
    | set items =>
      apply set
      intro u hu
      have hlt := List.sizeOf_lt_of_mem hu
      rw [Term.set.sizeOf_spec] at hsize
      exact ih (sizeOf u) (by omega) u rfl
    | obj pairs =>
      apply obj
      rintro ⟨k, u⟩ hu
      have hlt := List.sizeOf_lt_of_mem hu
      rw [Term.obj.sizeOf_spec] at hsize
      rw [Prod.mk.sizeOf_spec] at hlt
      exact ih (sizeOf u) (by omega) u rfl
    | _ => exact leaf _ rfl

/-! ## §2. Parts. -/

/-- A part of a term: a value in it, or the key of an object. -/
inductive Part where
  | value (t : Term)
  | key (k : Term)

/-- What the parts of a term are. -/
inductive Has : Term → Part → Prop where
  | self (t : Term) : Has t (.value t)
  | item {items : List Term} {t : Term} {p : Part} : t ∈ items → Has t p → Has (.arr items) p
  | member {items : List Term} {t : Term} {p : Part} : t ∈ items → Has t p → Has (.set items) p
  | key {pairs : List (Term × Term)} {e : Term × Term} : e ∈ pairs → Has (.obj pairs) (.key e.1)
  | under {pairs : List (Term × Term)} {e : Term × Term} {p : Part} :
      e ∈ pairs → Has e.2 p → Has (.obj pairs) p

mutual

/-- The parts of a term in reading order. -/
def parts : Term → List Part
  | .arr items => .value (.arr items) :: itemsParts items
  | .set items => .value (.set items) :: itemsParts items
  | .obj pairs => .value (.obj pairs) :: pairsParts pairs
  | t => [.value t]

/-- The parts of the items of an array or a set. -/
def itemsParts : List Term → List Part
  | [] => []
  | t :: rest => parts t ++ itemsParts rest

/-- The parts of the pairs of an object, each key before what is under it. -/
def pairsParts : List (Term × Term) → List Part
  | [] => []
  | (k, t) :: rest => .key k :: (parts t ++ pairsParts rest)

end

theorem parts_of_isLeaf {t : Term} (h : t.isLeaf = true) : t.parts = [.value t] := by
  cases t with
  | arr items => cases h
  | set items => cases h
  | obj pairs => cases h
  | _ => rfl

theorem itemsParts_eq (items : List Term) : itemsParts items = items.flatMap parts := by
  induction items with
  | nil => rfl
  | cons t rest ih => rw [itemsParts, ih, List.flatMap_cons]

theorem pairsParts_eq (pairs : List (Term × Term)) :
    pairsParts pairs = pairs.flatMap fun e => .key e.1 :: e.2.parts := by
  induction pairs with
  | nil => rfl
  | cons e rest ih =>
    rw [pairsParts, ih, List.flatMap_cons]
    rfl

theorem mem_itemsParts {items : List Term} {p : Part} :
    p ∈ itemsParts items ↔ ∃ t ∈ items, p ∈ t.parts := by
  rw [itemsParts_eq, List.mem_flatMap]

theorem mem_pairsParts {pairs : List (Term × Term)} {p : Part} :
    p ∈ pairsParts pairs ↔ ∃ e ∈ pairs, p = .key e.1 ∨ p ∈ e.2.parts := by
  simp only [pairsParts_eq, List.mem_flatMap, List.mem_cons]

/-- **The list of the parts has all of them, and nothing else.** -/
theorem mem_parts_iff {t : Term} {p : Part} : p ∈ t.parts ↔ t.Has p := by
  constructor
  · induction t using treeInduction with
    | leaf t hleaf =>
      rw [parts_of_isLeaf hleaf, List.mem_singleton]
      rintro rfl
      exact .self t
    | arr items ih =>
      rw [parts, List.mem_cons, mem_itemsParts]
      rintro (rfl | ⟨t, ht, hp⟩)
      · exact .self _
      · exact .item ht (ih t ht hp)
    | set items ih =>
      rw [parts, List.mem_cons, mem_itemsParts]
      rintro (rfl | ⟨t, ht, hp⟩)
      · exact .self _
      · exact .member ht (ih t ht hp)
    | obj pairs ih =>
      rw [parts, List.mem_cons, mem_pairsParts]
      rintro (rfl | ⟨e, he, rfl | hp⟩)
      · exact .self _
      · exact .key he
      · exact .under he (ih e he hp)
  · intro h
    induction h with
    | self t => cases t <;> exact .head _
    | item ht _ ih =>
      rw [parts]
      exact .tail _ (mem_itemsParts.mpr ⟨_, ht, ih⟩)
    | member ht _ ih =>
      rw [parts]
      exact .tail _ (mem_itemsParts.mpr ⟨_, ht, ih⟩)
    | key he =>
      rw [parts]
      exact .tail _ (mem_pairsParts.mpr ⟨_, he, Or.inl rfl⟩)
    | under he _ ih =>
      rw [parts]
      exact .tail _ (mem_pairsParts.mpr ⟨_, he, Or.inr ih⟩)

/-! ## §3. Bad parts. -/

/-- Why a part has no native value: it is undefined, an integer above the signed range that fits 64
unsigned bits, a number beyond the doubles, or a key that is no string. -/
def Part.defect? : Part → Option Defect
  | .value .undefined => some .undefinedValue
  | .value (.num q) =>
    if q.den = 1 ∧ 9223372036854775808 ≤ q.num ∧ q.num < 18446744073709551616 then
      some (.outOfRange q.num)
    else if Binary64.overflowBound ≤ |q| then some .beyondDoubles
    else none
  | .value _ => none
  | .key (.str _) => none
  | .key k => some (.keyNotString k.kind)

/-- The first of some parts that has a defect tells it. -/
def firstDefect? (ps : List Part) : Option Defect := ps.findSome? Part.defect?

/-- What is said of a part that has no native value. -/
def Part.complaint? : Part → Option String
  | .value .undefined => some "cannot use undefined value"
  | .value (.num q) =>
    if q.den = 1 ∧ 9223372036854775808 ≤ q.num ∧ q.num < 18446744073709551616 then
      some s!"integer {q.num} is out of the 64-bit signed range"
    else if Binary64.overflowBound ≤ |q| then
      some "number is not representable, serialized as null"
    else none
  | .value _ => none
  | .key (.str _) => none
  | .key k => some s!"object keys must be strings, got {k.kind} key"

/-- **What is said of a part is the message of its defect.** -/
theorem Part.complaint?_eq (p : Part) : p.complaint? = p.defect?.map Defect.message := by
  cases p with
  | value t =>
    cases t with
    | num q =>
      simp only [complaint?, defect?, ← Number.ofList_intDigits]
      split
      · rfl
      · split <;> rfl
    | _ => rfl
  | key k => cases k <;> rfl

/-! ## §4. Decoding. -/

/-- A number is a bad part exactly if it is refused, and for the same reason. -/
theorem fault?_numberToValue (q : Rat) :
    fault? (numberToValue q) = (Part.value (.num q)).defect? := by
  rw [Part.defect?]
  by_cases hnative : (Term.num q).IsNative
  · have hvalue := fault?_eq_none_iff.mpr (exists_numberToValue_iff.mpr hnative)
    rw [hvalue, if_neg, if_neg (not_le.mpr hnative.2)]
    rintro ⟨hden, hrange⟩
    exact hnative.1 q.num ((Rat.den_eq_one_iff q).mp hden).symm hrange
  · rcases numberToValue_spec q with ⟨n, -, hv⟩ | ⟨n, rfl, hlow, hhigh, hv⟩ | ⟨x, -, -, hv⟩ |
      ⟨hword, hx, hv⟩
    · exact absurd (exists_numberToValue_iff.mp ⟨_, hv⟩) hnative
    · rw [hv, if_pos ⟨Rat.den_intCast n, hlow, hhigh⟩]
      rfl
    · exact absurd (exists_numberToValue_iff.mp ⟨_, hv⟩) hnative
    · have hbeyond : Binary64.overflowBound ≤ |q| := by
        rw [← not_lt, ← Binary64.exists_ofRat?_iff, hx]
        exact nofun
      rw [hv, if_neg, if_pos hbeyond]
      · rfl
      · rintro ⟨hden, hlow, hhigh⟩
        rw [((Rat.den_eq_one_iff q).mp hden).symm, isWord_intCast.mpr ⟨by omega, hhigh⟩] at hword
        cases hword

theorem fault?_toValue_of_isLeaf {t : Term} (h : t.isLeaf = true) :
    fault? t.toValue = (Part.value t).defect? := by
  cases t with
  | num q => exact fault?_numberToValue q
  | arr items => cases h
  | set items => cases h
  | obj pairs => cases h
  | _ => rfl

/-- The items of an array or a set are decoded one by one. -/
theorem toValues_eq_mapM (items : List Term) : toValues items = items.mapM toValue :=
  eq_mapM toValues rfl (fun t _ => by rw [toValues]; cases t.toValue <;> rfl) items

/-- The entry that a pair of an object becomes. -/
def entry : Term × Term → Except Defect (String × Value)
  | (.str key, t) => t.toValue.map (key, ·)
  | (k, _) => .error (.keyNotString k.kind)

/-- So are the pairs of an object. -/
theorem toEntries_eq_mapM (pairs : List (Term × Term)) : toEntries pairs = pairs.mapM entry := by
  refine eq_mapM toEntries rfl (fun p rest => ?_) pairs
  obtain ⟨k, t⟩ := p
  cases k with
  | str key =>
    rw [toEntries, entry]
    cases t.toValue <;> rfl
  | _ => rfl

/-- A pair fails at its key, or else under it. -/
theorem fault?_entry {e : Term × Term} (h : fault? e.2.toValue = firstDefect? e.2.parts) :
    fault? (entry e) = firstDefect? (.key e.1 :: e.2.parts) := by
  obtain ⟨k, t⟩ := e
  cases k with
  | str key =>
    rw [entry, fault?_map]
    exact h
  | _ => rfl

/-- **The defect of the first bad part is reported**, and nothing else. -/
theorem fault?_toValue (t : Term) : fault? t.toValue = firstDefect? t.parts := by
  induction t using treeInduction with
  | leaf t hleaf =>
    rw [fault?_toValue_of_isLeaf hleaf, parts_of_isLeaf hleaf]
    exact (List.findSome?_singleton).symm
  | arr items ih =>
    rw [toValue, fault?_map, toValues_eq_mapM, parts, itemsParts_eq]
    exact fault?_mapM_eq_findSome? ih
  | set items ih =>
    rw [toValue, fault?_map, toValues_eq_mapM, parts, itemsParts_eq]
    exact fault?_mapM_eq_findSome? ih
  | obj pairs ih =>
    rw [toValue, fault?_map, toEntries_eq_mapM, parts, pairsParts_eq]
    exact fault?_mapM_eq_findSome? fun e he => fault?_entry (ih e he)

/-- **A term has a native value exactly if no part of it is bad.** -/
theorem isNative_iff {t : Term} : t.IsNative ↔ ∀ p, t.Has p → p.defect? = none := by
  rw [← exists_toValue_iff, ← fault?_eq_none_iff, fault?_toValue]
  unfold firstDefect?
  rw [List.findSome?_eq_none_iff]
  simp only [mem_parts_iff]

/-- A part is good unless it is undefined, an integer above the signed range that fits 64 unsigned
bits, a number beyond the doubles, or a key that is no string. -/
theorem Part.defect?_eq_none_iff {p : Part} : p.defect? = none ↔ p ≠ .value .undefined ∧
    (∀ q : Rat, p = .value (.num q) →
      (∀ n : Int, q = n → ¬ (9223372036854775808 ≤ n ∧ n < 18446744073709551616)) ∧
      |q| < Binary64.overflowBound) ∧
    ∀ k, p = .key k → ∃ s, k = .str s := by
  cases p with
  | value t =>
    cases t with
    | num q =>
      rw [← fault?_numberToValue, fault?_eq_none_iff, exists_numberToValue_iff]
      simp [IsNative]
    | _ => simp [defect?]
  | key k => cases k <;> simp [defect?]

end Term

end PolicyLookup
