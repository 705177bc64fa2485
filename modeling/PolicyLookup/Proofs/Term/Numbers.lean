/-
  PolicyLookup.Proofs.Term.Numbers — what becomes of the numbers of a policy.

  The integers of the signed range are kept, and every number that is no integer of 64 bits, signed
  or unsigned, is rounded.  Between the two is the upper half of the unsigned range, whose integers
  are refused; and so is a number that no double is near to.

    * `numberToValue_spec` — the four cases.
    * `refused_of_refused` — integers of 64 bits that are larger than a refused one are refused.
-/

import Mathlib.Data.Rat.Defs
import Mathlib.Tactic.NormNum
import PolicyLookup.Proofs.Number.Digits
import PolicyLookup.Proofs.Number.Rounding
import PolicyLookup.Term.Decoding

namespace PolicyLookup

namespace Term

/-! ## §1. The four cases. -/

/-- Which integers fit 64 bits, signed or unsigned. -/
theorem isWord_intCast {n : Int} :
    isWord n = true ↔ -9223372036854775808 ≤ n ∧ n < 18446744073709551616 := by
  unfold isWord
  rw [Rat.den_intCast, Rat.num_intCast]
  simp only [beq_self_eq_true, Bool.true_and, Bool.and_eq_true, decide_eq_true_eq]

/-- Only integers fit 64 bits. -/
theorem exists_int_of_isWord {q : Rat} (h : isWord q = true) : ∃ n : Int, q = n := by
  unfold isWord at h
  simp only [Bool.and_eq_true, beq_iff_eq] at h
  exact ⟨q.num, ((Rat.den_eq_one_iff q).mp h.1.1).symm⟩

/-- An integer of the signed range is kept. -/
theorem numberToValue_int64 (n : Int64) : numberToValue n.toInt = .ok (.int n) := by
  have hlow := Int64.le_toInt n
  have hhigh := Int64.toInt_lt n
  have hword : isWord n.toInt = true := isWord_intCast.mpr ⟨by omega, by omega⟩
  unfold numberToValue int64?
  rw [if_pos hword, Rat.num_intCast, if_pos ⟨by omega, by omega⟩, Int64.ofInt_toInt]

/-- An integer above the signed range that fits 64 unsigned bits is refused. -/
theorem numberToValue_unsigned {n : Int} (hlow : 9223372036854775808 ≤ n)
    (hhigh : n < 18446744073709551616) : numberToValue n = .error (.outOfRange n) := by
  have hword : isWord n = true := isWord_intCast.mpr ⟨by omega, hhigh⟩
  unfold numberToValue int64?
  rw [if_pos hword, Rat.num_intCast, if_neg (by omega)]

/-- Integers of a little more than 64 bits are within the range of doubles. -/
theorem exists_ofRat?_intCast {n : Int} (h : n.natAbs < 36893488147419103232) :
    ∃ x, Binary64.ofRat? n = some x := by
  rw [Binary64.exists_ofRat?_iff]
  have habs : |(n : Rat)| = ((n.natAbs : Int) : Rat) := by rw [Int.natCast_natAbs, Int.cast_abs]
  have hlt : ((n.natAbs : Int) : Rat) < 36893488147419103232 := by exact_mod_cast h
  have hbound : (36893488147419103232 : Rat) ≤ Binary64.overflowBound := by decide +kernel
  rw [habs]
  exact lt_of_lt_of_le hlt hbound

/-- Every other number is rounded. -/
theorem numberToValue_rounded {q : Rat} {x : Binary64} (h : isWord q = false)
    (hx : Binary64.ofRat? q = some x) : numberToValue q = .ok (.float x) := by
  unfold numberToValue
  rw [if_neg (by rw [h]; exact Bool.false_ne_true), hx]

/-- A number that passes the largest double is refused. -/
theorem numberToValue_beyond {q : Rat} (h : isWord q = false) (hx : Binary64.ofRat? q = none) :
    numberToValue q = .error .beyondDoubles := by
  unfold numberToValue
  rw [if_neg (by rw [h]; exact Bool.false_ne_true), hx]

/-- **What becomes of a number**: an integer of the signed range is kept, one above it that fits 64
unsigned bits is refused, and every other number is rounded if there is a double for it. -/
theorem numberToValue_spec (q : Rat) :
    (∃ n : Int64, q = n.toInt ∧ numberToValue q = .ok (.int n)) ∨
    (∃ n : Int, q = n ∧ 9223372036854775808 ≤ n ∧ n < 18446744073709551616 ∧
      numberToValue q = .error (.outOfRange n)) ∨
    (∃ x, isWord q = false ∧ Binary64.ofRat? q = some x ∧ numberToValue q = .ok (.float x)) ∨
    (isWord q = false ∧ Binary64.ofRat? q = none ∧
      numberToValue q = .error .beyondDoubles) := by
  cases hword : isWord q with
  | false =>
    cases hx : Binary64.ofRat? q with
    | some x => exact Or.inr (Or.inr (Or.inl ⟨x, rfl, rfl, numberToValue_rounded hword hx⟩))
    | none => exact Or.inr (Or.inr (Or.inr ⟨rfl, rfl, numberToValue_beyond hword hx⟩))
  | true =>
    obtain ⟨n, rfl⟩ := exists_int_of_isWord hword
    obtain ⟨hlow, hhigh⟩ := isWord_intCast.mp hword
    by_cases hsigned : n < 9223372036854775808
    · have hn : (Int64.ofInt n).toInt = n := Int64.toInt_ofInt_of_le (by omega) (by omega)
      have hkept := numberToValue_int64 (Int64.ofInt n)
      rw [hn] at hkept
      exact Or.inl ⟨Int64.ofInt n, by rw [hn], hkept⟩
    · have hlarge : 9223372036854775808 ≤ n := by omega
      exact Or.inr (Or.inl ⟨n, rfl, hlarge, hhigh, numberToValue_unsigned hlarge hhigh⟩)

/-! ## §2. Integers that are refused. -/

/-- A number is refused for being an integer out of the signed range. -/
def Refused (n : Int) : Prop :=
  (Term.num n).decode = .error (.type s!"integer {n} is out of the 64-bit signed range" none)

theorem message_outOfRange (n : Int) :
    (Defect.outOfRange n).message = s!"integer {n} is out of the 64-bit signed range" := by
  rw [← Number.ofList_intDigits]
  rfl

theorem decode_num_of_ok {q : Rat} {v : Value} (h : numberToValue q = .ok v) :
    (Term.num q).decode = .ok v := by
  unfold decode
  rw [toValue, h]
  rfl

theorem refused_of_unsigned {n : Int} (hlow : 9223372036854775808 ≤ n)
    (hhigh : n < 18446744073709551616) : Refused n := by
  unfold Refused decode
  rw [toValue, numberToValue_unsigned hlow hhigh, ← message_outOfRange]
  rfl

theorem not_refused_of_ok {n : Int} {v : Value} (h : numberToValue n = .ok v) : ¬ Refused n := by
  intro hn
  rw [Refused, decode_num_of_ok h] at hn
  cases hn

/-- The messages of the two refusals differ in their first letter. -/
theorem message_beyondDoubles_ne (digits rest : String) :
    "number is not representable, serialized as null" ≠ "integer " ++ digits ++ rest := by
  intro h
  have hhead := congrArg (fun text => text.toList.head?) h
  simp at hhead

/-- A number beyond the doubles is refused for another reason. -/
theorem not_refused_of_beyond {n : Int} (h : numberToValue n = .error .beyondDoubles) :
    ¬ Refused n := by
  intro hn
  have hdecode : (Term.num n).decode = .error (.type Defect.beyondDoubles.message none) := by
    unfold decode
    rw [toValue, h]
    rfl
  rw [Refused, hdecode] at hn
  have herror := Except.error.inj hn
  injection herror with hmessage
  exact message_beyondDoubles_ne _ _ hmessage

/-- What is refused is above the signed range. -/
theorem le_of_refused {n : Int} (h : Refused n) : 9223372036854775808 ≤ n := by
  rcases numberToValue_spec n with ⟨k, -, hkept⟩ | ⟨k, hk, hlow, -⟩ | ⟨x, -, -, hrounded⟩ |
    ⟨-, -, hbeyond⟩
  · exact absurd h (not_refused_of_ok hkept)
  · rw [Rat.intCast_inj.mp hk]
    exact hlow
  · exact absurd h (not_refused_of_ok hrounded)
  · exact absurd h (not_refused_of_beyond hbeyond)

/-- **Whatever has at least the magnitude of a refused integer is refused too**, as long as 64 bits
are enough for it, with one exception: the least integer of the signed range, which has the
magnitude of the first refused one, is kept. -/
theorem refused_of_refused {m n : Int} (hn : Refused n) (hmagnitude : n.natAbs ≤ m.natAbs) :
    Refused m ∨
      (m = Int64.minValue.toInt ∧ (Term.num m).decode = .ok (.int Int64.minValue)) ∨
      m < Int64.minValue.toInt ∨ 18446744073709551616 ≤ m := by
  have hlow := le_of_refused hn
  have hmin : Int64.minValue.toInt = -9223372036854775808 := rfl
  by_cases hpositive : 9223372036854775808 ≤ m
  · by_cases hhigh : m < 18446744073709551616
    · exact Or.inl (refused_of_unsigned hpositive hhigh)
    · omega
  · by_cases heq : m = Int64.minValue.toInt
    · rw [heq]
      exact Or.inr (Or.inl ⟨rfl, decode_num_of_ok (numberToValue_int64 Int64.minValue)⟩)
    · omega

theorem refused_of_refused_unsigned : Refused 9223372036854775808 ∧
    Refused 18446744073709551615 := by
  have hfirst : Refused 9223372036854775808 := refused_of_unsigned (by decide) (by decide)
  refine ⟨hfirst, ?_⟩
  rcases refused_of_refused hfirst (m := 18446744073709551615) (by decide) with h | ⟨h, -⟩ | h | h
  · exact h
  · exact absurd h (by decide)
  · exact absurd h (by decide)
  · exact absurd h (by decide)

/-- **Not everything of at least that magnitude is refused**: neither is the least integer of the
signed range, nor are integers that take more than 64 bits. -/
theorem larger_not_refused : Refused 9223372036854775808 ∧
    (Term.num (-9223372036854775808 : Int)).decode = .ok (.int Int64.minValue) ∧
    ¬ Refused 18446744073709552000 ∧ ¬ Refused (-9223372036854776000) ∧
    ¬ ∀ m n : Int, Refused n → n.natAbs ≤ m.natAbs → Refused m := by
  have hfirst : Refused 9223372036854775808 := refused_of_unsigned (by decide) (by decide)
  have hleast : numberToValue (-9223372036854775808 : Int) = .ok (.int Int64.minValue) :=
    numberToValue_int64 Int64.minValue
  have hlarge : ¬ Refused 18446744073709552000 := by
    obtain ⟨x, hx⟩ := exists_ofRat?_intCast (n := 18446744073709552000) (by decide)
    exact not_refused_of_ok (numberToValue_rounded (by decide) hx)
  have hsmall : ¬ Refused (-9223372036854776000) := by
    obtain ⟨x, hx⟩ := exists_ofRat?_intCast (n := -9223372036854776000) (by decide)
    exact not_refused_of_ok (numberToValue_rounded (by decide) hx)
  refine ⟨hfirst, decode_num_of_ok hleast, hlarge, hsmall, fun h => hlarge ?_⟩
  exact h 18446744073709552000 9223372036854775808 hfirst (by decide)

end Term

end PolicyLookup
