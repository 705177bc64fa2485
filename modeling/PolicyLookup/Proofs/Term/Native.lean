/-
  PolicyLookup.Proofs.Term.Native — which terms have a native value.

  Four parts of a term have none: an undefined value, a key of an object that is no string, an
  integer above the signed range that still fits 64 unsigned bits, and a number beyond the doubles.
  A term has a native value exactly if no such part is in it, at any depth; and then the kind of the
  value tells the kind of the term, except that a sequence comes from an array or a set and a number
  of either kind from a number.

    * `exists_toValue_iff` — which terms have a native value.
    * `eq_str_of_toValue`, `exists_obj_of_toValue` — where strings and mappings come from.
    * `decodeArgument_eq_ok_iff` — which arguments are taken.
-/

import PolicyLookup.Proofs.Term.Numbers
import PolicyLookup.Proofs.Value.Encoding

namespace PolicyLookup

namespace Term

/-! ## §1. Terms all parts of which have a native value. -/

mutual

/-- Nothing in a term is without a native value. -/
def IsNative : Term → Prop
  | .null => True
  | .bool _ => True
  | .num q => (∀ n : Int, q = n → ¬ (9223372036854775808 ≤ n ∧ n < 18446744073709551616)) ∧
      |q| < Binary64.overflowBound
  | .str _ => True
  | .arr items => AllNative items
  | .set items => AllNative items
  | .obj pairs => PairsNative pairs
  | .undefined => False

/-- Nothing in any of some terms is without a native value. -/
def AllNative : List Term → Prop
  | [] => True
  | t :: rest => IsNative t ∧ AllNative rest

/-- All keys are strings, and nothing in what is under them is without a native value. -/
def PairsNative : List (Term × Term) → Prop
  | [] => True
  | (k, t) :: rest => (∃ key, k = .str key) ∧ IsNative t ∧ PairsNative rest

end

theorem allNative_iff {items : List Term} : AllNative items ↔ ∀ t ∈ items, t.IsNative := by
  induction items with
  | nil => simp [AllNative]
  | cons t rest ih => simp [AllNative, ih]

theorem pairsNative_iff {pairs : List (Term × Term)} :
    PairsNative pairs ↔ ∀ p ∈ pairs, (∃ key, p.1 = .str key) ∧ p.2.IsNative := by
  induction pairs with
  | nil => simp [PairsNative]
  | cons p rest ih => simp [PairsNative, ih, and_assoc]

/-! ## §2. What has a native value. -/

/-- A number has a native value unless it is an integer between the signed and the unsigned range or
beyond the doubles. -/
theorem exists_numberToValue_iff {q : Rat} :
    (∃ v, numberToValue q = .ok v) ↔ (Term.num q).IsNative := by
  rw [IsNative, ← Binary64.exists_ofRat?_iff]
  rcases numberToValue_spec q with ⟨k, rfl, hkept⟩ | ⟨k, rfl, hlow, hhigh, href⟩ |
    ⟨x, hword, hx, hrounded⟩ | ⟨-, hx, hbeyond⟩
  · have hlow := Int64.le_toInt k
    have hhigh := Int64.toInt_lt k
    refine iff_of_true ⟨_, hkept⟩ ⟨fun n hn hrange => ?_, exists_ofRat?_intCast (by omega)⟩
    have heq : k.toInt = n := Rat.intCast_inj.mp hn
    omega
  · rw [href]
    exact iff_of_false nofun fun h => h.1 k rfl ⟨hlow, hhigh⟩
  · refine iff_of_true ⟨_, hrounded⟩ ⟨fun n hn hrange => ?_, x, hx⟩
    rw [hn, isWord_intCast.mpr ⟨by omega, hrange.2⟩] at hword
    cases hword
  · rw [hbeyond, hx]
    exact iff_of_false nofun fun h => nomatch h.2

mutual

/-- **A term has a native value exactly if nothing in it is without one.** -/
theorem exists_toValue_iff : ∀ t : Term, (∃ v, t.toValue = .ok v) ↔ t.IsNative
  | .null => ⟨fun _ => trivial, fun _ => ⟨_, rfl⟩⟩
  | .bool _ => ⟨fun _ => trivial, fun _ => ⟨_, rfl⟩⟩
  | .num _ => exists_numberToValue_iff
  | .str _ => ⟨fun _ => trivial, fun _ => ⟨_, rfl⟩⟩
  | .arr items => exists_map_eq_ok_iff.trans (exists_toValues_iff items)
  | .set items => exists_map_eq_ok_iff.trans (exists_toValues_iff items)
  | .obj pairs => exists_map_eq_ok_iff.trans (exists_toEntries_iff pairs)
  | .undefined => ⟨fun ⟨_, h⟩ => (nomatch h), nofun⟩

theorem exists_toValues_iff : ∀ items : List Term,
    (∃ vs, toValues items = .ok vs) ↔ AllNative items
  | [] => ⟨fun _ => trivial, fun _ => ⟨_, rfl⟩⟩
  | t :: rest => by
    rw [AllNative, ← exists_toValue_iff t, ← exists_toValues_iff rest, toValues]
    cases t.toValue with
    | error d => simp
    | ok v => simp [exists_map_eq_ok_iff]

theorem exists_toEntries_iff : ∀ pairs : List (Term × Term),
    (∃ entries, toEntries pairs = .ok entries) ↔ PairsNative pairs
  | [] => ⟨fun _ => trivial, fun _ => ⟨_, rfl⟩⟩
  | (k, t) :: rest => by
    rw [PairsNative, ← exists_toValue_iff t, ← exists_toEntries_iff rest]
    cases k with
    | str key =>
      rw [toEntries]
      cases t.toValue with
      | error d => simp
      | ok v => simp [exists_map_eq_ok_iff]
    | _ => simp [toEntries]

end

/-! ## §3. Where strings and mappings come from. -/

/-- The value of a number is a number. -/
theorem numberToValue_cases {q : Rat} {v : Value} (h : numberToValue q = .ok v) :
    (∃ n, v = .int n) ∨ ∃ x, v = .float x := by
  rcases numberToValue_spec q with ⟨n, -, hq⟩ | ⟨n, -, -, -, hq⟩ | ⟨x, -, -, hq⟩ | ⟨-, -, hq⟩
  · exact Or.inl ⟨n, Except.ok.inj (h.symm.trans hq)⟩
  · cases h.symm.trans hq
  · exact Or.inr ⟨x, Except.ok.inj (h.symm.trans hq)⟩
  · cases h.symm.trans hq

/-- Only a string has a string for its value. -/
theorem eq_str_of_toValue {t : Term} {s : String} (h : t.toValue = .ok (.str s)) : t = .str s := by
  cases t with
  | str s' =>
    obtain rfl := Value.str.inj (Except.ok.inj h)
    rfl
  | num q =>
    rcases numberToValue_cases h with ⟨n, hn⟩ | ⟨x, hx⟩
    · cases hn
    · cases hx
  | arr items => obtain ⟨vs, -, hvs⟩ := exists_of_map_eq_ok h; cases hvs
  | set items => obtain ⟨vs, -, hvs⟩ := exists_of_map_eq_ok h; cases hvs
  | obj pairs => obtain ⟨entries, -, hentries⟩ := exists_of_map_eq_ok h; cases hentries
  | null => cases h
  | bool b => cases h
  | undefined => cases h

/-- Only an object has a mapping for its value. -/
theorem exists_obj_of_toValue {t : Term} {m : Mapping} (h : t.toValue = .ok (.map m)) :
    ∃ pairs, t = .obj pairs := by
  cases t with
  | obj pairs => exact ⟨pairs, rfl⟩
  | num q =>
    rcases numberToValue_cases h with ⟨n, hn⟩ | ⟨x, hx⟩
    · cases hn
    · cases hx
  | arr items => obtain ⟨vs, -, hvs⟩ := exists_of_map_eq_ok h; cases hvs
  | set items => obtain ⟨vs, -, hvs⟩ := exists_of_map_eq_ok h; cases hvs
  | null => cases h
  | bool b => cases h
  | str s => cases h
  | undefined => cases h

/-! ## §4. Arguments. -/

variable {t : Term} {shape : Shape} {position : Nat} {v : Value}

/-- A term without a native value is refused for its defect. -/
theorem decodeArgument_of_error {d : Defect} (h : t.toValue = .error d) :
    t.decodeArgument shape position = .error (.argument position d.message) := by
  unfold decodeArgument
  rw [h]

/-- A value in another shape is refused. -/
theorem decodeArgument_of_not_accepts (h : t.toValue = .ok v) (hshape : shape.accepts v = false) :
    t.decodeArgument shape position
      = .error (.argument position s!"expected {shape.name}, got {t.kind}") := by
  unfold decodeArgument
  rw [h]
  exact if_neg (by rw [hshape]; exact Bool.false_ne_true)

/-- What is taken is the value, if it has the declared shape. -/
theorem decodeArgument_eq_ok_iff :
    t.decodeArgument shape position = .ok v ↔ t.toValue = .ok v ∧ shape.accepts v = true := by
  cases hvalue : t.toValue with
  | error d =>
    rw [decodeArgument_of_error hvalue]
    exact ⟨nofun, fun h => nomatch h.1⟩
  | ok w =>
    cases hshape : shape.accepts w with
    | false =>
      rw [decodeArgument_of_not_accepts hvalue hshape]
      refine ⟨nofun, ?_⟩
      rintro ⟨hw, haccepts⟩
      rw [Except.ok.inj hw, haccepts] at hshape
      cases hshape
    | true =>
      have hok : t.decodeArgument shape position = .ok w := by
        unfold decodeArgument
        rw [hvalue]
        exact if_pos hshape
      rw [hok, Except.ok.injEq, Except.ok.injEq]
      exact ⟨fun hw => ⟨hw, hw ▸ hshape⟩, And.left⟩

end Term

end PolicyLookup
