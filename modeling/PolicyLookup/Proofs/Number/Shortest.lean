/-
  PolicyLookup.Proofs.Number.Shortest — the shortest decimal of a double denotes that double.

  Whatever the search for few digits finds has been read back, and the exact expansion stands
  for the value itself.  So what is read back is always the double that was written, whether or
  not the search found anything.

    * `readsBack_shortest` — the shortest decimal of a finite double reads back as that double.
    * `value_trim` — zeros at the end of a coefficient may be dropped.
    * `same_ofRat_shortestValue` — so does the number that the shortest text denotes, as a number.
-/

import Mathlib.Tactic.Ring
import PolicyLookup.Number.Shortest
import PolicyLookup.Proofs.Number.Nearest

namespace PolicyLookup

namespace Number

theorem ten_zpow_pos (e : Int) : 0 < (10 : Rat) ^ e := Rat.zpow_pos (by decide)

theorem ten_zpow_natCast (n : Nat) : (10 : Rat) ^ (n : Int) = ((10 ^ n : Nat) : Rat) := by
  rw [Rat.zpow_natCast]
  push_cast
  rfl

end Number

namespace Decimal

open Number

theorem value_nonneg (d : Decimal) : 0 ≤ d.value :=
  mul_nonneg (Nat.cast_nonneg _) (le_of_lt (ten_zpow_pos _))

/-! ## §1. Zeros at the end. -/

/-- A factor of ten may go into the exponent. -/
theorem value_ten_mul (coefficient : Nat) (exponent : Int) :
    value ⟨10 * coefficient, exponent⟩ = value ⟨coefficient, exponent + 1⟩ := by
  unfold value
  rw [Rat.zpow_add_one (by decide)]
  push_cast
  ring

theorem value_trimPositive (coefficient : Nat) (exponent : Int) :
    (trimPositive coefficient exponent).value = value ⟨coefficient, exponent⟩ := by
  fun_induction trimPositive coefficient exponent with
  | case1 coefficient exponent h ih =>
    have hten : coefficient = 10 * (coefficient / 10) := by omega
    rw [ih, ← value_ten_mul, ← hten]
  | case2 coefficient exponent h => rfl

theorem trimPositive_ne_zero {coefficient : Nat} (h : coefficient ≠ 0) (exponent : Int) :
    (trimPositive coefficient exponent).coefficient ≠ 0 := by
  fun_induction trimPositive coefficient exponent with
  | case1 coefficient exponent hten ih => exact ih (by omega)
  | case2 coefficient exponent hten => exact h

/-- Without the zeros at its end a decimal is the same number. -/
theorem value_trim (d : Decimal) : d.trim.value = d.value := by
  obtain ⟨coefficient, exponent⟩ := d
  unfold trim
  split
  · next h =>
    have hcoefficient : coefficient = 0 := h
    subst hcoefficient
    show ((0 : Nat) : Rat) * _ = ((0 : Nat) : Rat) * _
    rw [Nat.cast_zero, zero_mul, zero_mul]
  · exact value_trimPositive coefficient exponent

/-- Zero is trimmed to `0 · 10 ^ 0`. -/
theorem exponent_trim_of_coefficient_eq_zero {d : Decimal} (h : d.trim.coefficient = 0) :
    d.trim.exponent = 0 := by
  unfold trim at h ⊢
  split
  · rfl
  · next hne =>
    rw [if_neg hne] at h
    exact absurd h (trimPositive_ne_zero hne d.exponent)

end Decimal

namespace Binary64

open Number

/-! ## §2. What the search finds. -/

theorem readsBack_iff {x : Binary64} {d : Decimal} :
    x.readsBack d = true ↔ nearest? x.negative d.value = some x :=
  decide_eq_true_iff

/-- A neighbour that is returned has been read back. -/
theorem readsBack_of_neighbour? {x : Binary64} {step : Int} {d : Decimal}
    (h : x.neighbour? step = some d) : x.readsBack d = true := by
  unfold neighbour? at h
  simp only at h
  -- The low and the high neighbour are returned only where their own test has passed.
  split at h
  · next hlow =>
    split at h
    · next hhigh =>
      repeat' split at h
      all_goals cases h; assumption
    · cases h
      exact hlow
  · split at h
    · next hhigh =>
      cases h
      exact hhigh
    · cases h

/-- The exact expansion of a double is its magnitude. -/
theorem value_exactDecimal (x : Binary64) : x.exactDecimal.value = x.magnitude := by
  unfold exactDecimal magnitude
  split
  · next h =>
    obtain ⟨n, hn⟩ : ∃ n : Nat, x.scale = n := ⟨x.scale.toNat, by omega⟩
    show ((x.significand * 2 ^ x.scale.toNat : Nat) : Rat) * (10 : Rat) ^ (0 : Int) = _
    rw [hn, Int.toNat_natCast, two_zpow_natCast, Rat.zpow_zero, mul_one]
    exact Nat.cast_mul _ _
  · next h =>
    obtain ⟨n, hn⟩ : ∃ n : Nat, x.scale = -(n : Int) := ⟨(-x.scale).toNat, by omega⟩
    show ((x.significand * 5 ^ (-x.scale).toNat : Nat) : Rat) * (10 : Rat) ^ x.scale = _
    -- `5 ^ n` times `10 ^ (-n)` is `2 ^ (-n)`, because `10 ^ n` is `5 ^ n` times `2 ^ n`.
    have hsplit : (10 : Rat) ^ (n : Int) = ((5 ^ n : Nat) : Rat) * (2 : Rat) ^ (n : Int) := by
      rw [ten_zpow_natCast, two_zpow_natCast, ← Nat.cast_mul, ← Nat.mul_pow]
    have hfive : ((5 ^ n : Nat) : Rat) ≠ 0 := by
      exact_mod_cast (Nat.pow_pos (by decide : 0 < 5)).ne'
    rw [hn, neg_neg, Int.toNat_natCast, Rat.zpow_neg, Rat.zpow_neg, hsplit, mul_inv,
      Nat.cast_mul, mul_assoc, ← mul_assoc ((5 ^ n : Nat) : Rat), mul_inv_cancel₀ hfive, one_mul]

/-- A zero is read from the digit zero. -/
theorem readsBack_zero {x : Binary64} (hx : x.isFinite = true) (hzero : x.isZero = true) :
    x.readsBack ⟨0, 0⟩ = true := by
  have hmagnitude : x.magnitude = Decimal.value ⟨0, 0⟩ := by
    unfold magnitude Decimal.value
    rw [significand_eq_zero.mpr hzero]
    simp
  rw [readsBack_iff, ← hmagnitude]
  exact nearest?_magnitude hx

/-- **Shortest decimals read back**: the shortest decimal of a finite double, with its sign, is
read as that double. -/
theorem readsBack_shortest {x : Binary64} (hx : x.isFinite = true) :
    x.readsBack x.shortest = true := by
  unfold shortest
  cases hzero : x.isZero with
  | true => exact readsBack_zero hx hzero
  | false =>
    simp only [Bool.false_eq_true, if_false]
    rw [readsBack_iff, Decimal.value_trim, ← readsBack_iff]
    -- Where the search begins does not matter, for whatever it finds has been read back.
    generalize decimalOrder x.magnitude = order
    cases hfound : (List.range 17).findSome? fun (n : Nat) => x.neighbour? (order - n) with
    | some d =>
      obtain ⟨n, -, hn⟩ := List.exists_of_findSome?_eq_some hfound
      exact readsBack_of_neighbour? hn
    | none =>
      rw [Option.getD_none, readsBack_iff, value_exactDecimal]
      exact nearest?_magnitude hx

/-- The shortest decimal of zero has the exponent zero. -/
theorem exponent_shortest_of_coefficient_eq_zero {x : Binary64}
    (h : x.shortest.coefficient = 0) : x.shortest.exponent = 0 := by
  unfold shortest at h ⊢
  split
  · rfl
  · next hne =>
    rw [if_neg hne] at h
    exact Decimal.exponent_trim_of_coefficient_eq_zero h

/-! ## §3. The number that a shortest text denotes. -/

/-- Only a zero is nearest to zero. -/
theorem isZero_of_nearest?_zero {negative : Bool} {x : Binary64}
    (h : nearest? negative 0 = some x) : x.isZero = true := by
  unfold nearest? at h
  rw [if_pos rfl] at h
  cases h
  rfl

/-- The shortest decimal of a double that is not zero is positive. -/
theorem value_shortest_pos {x : Binary64} (hx : x.isFinite = true) (hzero : x.isZero = false) :
    0 < x.shortest.value := by
  refine lt_of_le_of_ne x.shortest.value_nonneg ?_
  intro hvalue
  have hback := readsBack_iff.mp (readsBack_shortest hx)
  rw [← hvalue] at hback
  rw [isZero_of_nearest?_zero hback] at hzero
  cases hzero

theorem shortestValue_of_isZero {x : Binary64} (hzero : x.isZero = true) :
    x.shortestValue = 0 := by
  have hvalue : x.shortest.value = 0 := by
    unfold shortest
    rw [if_pos hzero]
    exact zero_mul _
  unfold shortestValue
  rw [hvalue, neg_zero, ite_self]

/-- **A double that is not zero is found again from the number that its shortest text denotes**,
bit for bit. -/
theorem ofRat?_shortestValue {x : Binary64} (hx : x.isFinite = true) (hzero : x.isZero = false) :
    ofRat? x.shortestValue = some x := by
  have hpos := value_shortest_pos hx hzero
  have hback := readsBack_iff.mp (readsBack_shortest hx)
  unfold ofRat? shortestValue
  -- The sign of the number is that of the double, since neither is zero.
  cases hnegative : x.negative with
  | true =>
    rw [hnegative] at hback
    rw [if_pos rfl, if_pos (neg_neg_of_pos hpos), neg_neg, hback]
  | false =>
    rw [hnegative] at hback
    simp only [Bool.false_eq_true, if_false]
    rw [if_neg (not_lt_of_gt hpos), hback]

/-- **The number that the shortest text of a double denotes is rounded to that double**, as a
number: instead of the negative zero it is the positive one. -/
theorem same_ofRat_shortestValue {x : Binary64} (hx : x.isFinite = true) :
    (ofRat x.shortestValue).same x = true := by
  have hnumber := isNaN_of_isFinite hx
  cases hzero : x.isZero with
  | true =>
    have hofRat : ofRat 0 = zero := rfl
    have hzeroNumber : zero.isNaN = false := rfl
    have hzeroZero : zero.isZero = true := rfl
    rw [shortestValue_of_isZero hzero, hofRat]
    unfold same
    rw [hnumber, hzeroNumber, hzero, hzeroZero]
    simp
  | false =>
    have hofRat : ofRat x.shortestValue = x := by
      rw [ofRat, ofRat?_shortestValue hx hzero]
      rfl
    rw [hofRat]
    unfold same
    rw [hnumber]
    simp

end Binary64

end PolicyLookup
