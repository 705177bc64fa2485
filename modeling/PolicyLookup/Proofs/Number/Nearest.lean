/-
  PolicyLookup.Proofs.Number.Nearest — what rounding to doubles keeps.

  A finite double is a significand times a power of two, and this power is the spacing of doubles
  around it.  Rounding to whole multiples of the spacing therefore leaves the significand as it
  is, and the code made from it is the code of the double.

    * `two_zpow_binaryOrder_le`, `lt_two_zpow_binaryOrder` — the binary order is what it should be.
    * `nearest?_magnitude` — the double nearest to the magnitude of a finite double is that double.
    * `nearest?_of_lt_tiny`, `nearest?_of_huge` — far outside the range of doubles there is nothing
      but zero, or nothing.
    * `isFinite_of_ofRat?` — the nearest double is neither an infinity nor a NaN.
-/

import Mathlib.Algebra.Order.Field.Power
import Mathlib.Algebra.Order.Ring.Rat
import Mathlib.Tactic.NormNum
import PolicyLookup.Number.Nearest

namespace PolicyLookup

namespace Number

/-! ## §1. Powers of two and the binary order. -/

theorem two_zpow_pos (e : Int) : 0 < (2 : Rat) ^ e := Rat.zpow_pos (by decide)

theorem two_zpow_natCast (n : Nat) : (2 : Rat) ^ (n : Int) = ((2 ^ n : Nat) : Rat) := by
  rw [Rat.zpow_natCast]
  push_cast
  rfl

/-- A fraction is what its numerator is over its denominator. -/
theorem mul_den_eq {q : Rat} (hq : 0 < q) : q * (q.den : Rat) = (q.num.natAbs : Rat) := by
  have hnum : (q.num.natAbs : Int) = q.num := by
    have := Rat.num_pos.mpr hq
    omega
  rw [Rat.mul_den_eq_num, ← Int.cast_natCast, hnum]

/-- The order lies between two estimates that are one apart. -/
theorem binaryOrder_bounds {q : Rat} (hq : 0 < q) :
    (2 : Rat) ^ (binaryOrder q) ≤ q ∧ q < (2 : Rat) ^ (binaryOrder q + 1) := by
  have hn : q.num.natAbs ≠ 0 := by
    have := Rat.num_pos.mpr hq
    omega
  have hd : (0 : Rat) < q.den := by exact_mod_cast q.den_pos
  obtain ⟨a, ha⟩ : ∃ a, a = q.num.natAbs.log2 := ⟨_, rfl⟩
  obtain ⟨b, hb⟩ : ∃ b, b = q.den.log2 := ⟨_, rfl⟩
  have hnum_le : (2 : Rat) ^ (a : Int) ≤ q.num.natAbs := by
    rw [two_zpow_natCast, ha]
    exact_mod_cast Nat.log2_self_le hn
  have hnum_lt : (q.num.natAbs : Rat) < (2 : Rat) ^ ((a : Int) + 1) := by
    rw [show (a : Int) + 1 = ((a + 1 : Nat) : Int) from rfl, two_zpow_natCast, ha]
    exact_mod_cast Nat.lt_log2_self
  have hden_le : (2 : Rat) ^ (b : Int) ≤ q.den := by
    rw [two_zpow_natCast, hb]
    exact_mod_cast Nat.log2_self_le q.den_nz
  have hden_lt : (q.den : Rat) < (2 : Rat) ^ ((b : Int) + 1) := by
    rw [show (b : Int) + 1 = ((b + 1 : Nat) : Int) from rfl, two_zpow_natCast, hb]
    exact_mod_cast Nat.lt_log2_self
  -- Both estimates are compared with `q` after multiplication by its denominator.
  have hlow : (2 : Rat) ^ ((a : Int) - b - 1) < q := by
    apply lt_of_mul_lt_mul_right _ (le_of_lt hd)
    calc (2 : Rat) ^ ((a : Int) - b - 1) * q.den
        < (2 : Rat) ^ ((a : Int) - b - 1) * (2 : Rat) ^ ((b : Int) + 1) :=
          mul_lt_mul_of_pos_left hden_lt (two_zpow_pos _)
      _ = (2 : Rat) ^ (a : Int) := by rw [← Rat.zpow_add (by decide)]; congr 1; omega
      _ ≤ q.num.natAbs := hnum_le
      _ = q * q.den := (mul_den_eq hq).symm
  have hhigh : q < (2 : Rat) ^ ((a : Int) - b + 1) := by
    apply lt_of_mul_lt_mul_right _ (le_of_lt hd)
    calc q * q.den = q.num.natAbs := mul_den_eq hq
      _ < (2 : Rat) ^ ((a : Int) + 1) := hnum_lt
      _ = (2 : Rat) ^ ((a : Int) - b + 1) * (2 : Rat) ^ (b : Int) := by
          rw [← Rat.zpow_add (by decide)]; congr 1; omega
      _ ≤ (2 : Rat) ^ ((a : Int) - b + 1) * q.den :=
          mul_le_mul_of_nonneg_left hden_le (le_of_lt (two_zpow_pos _))
  unfold binaryOrder
  simp only [← ha, ← hb]
  split
  · next h => exact ⟨h, hhigh⟩
  · next h =>
    refine ⟨le_of_lt hlow, ?_⟩
    rw [Int.sub_add_cancel]
    exact not_le.mp h

theorem le_binaryOrder {q : Rat} {e : Int} (h : (2 : Rat) ^ e ≤ q) : e ≤ binaryOrder q := by
  have hq : 0 < q := lt_of_lt_of_le (two_zpow_pos e) h
  have hlt : (2 : Rat) ^ e < (2 : Rat) ^ (binaryOrder q + 1) :=
    lt_of_le_of_lt h (binaryOrder_bounds hq).2
  have := (zpow_lt_zpow_iff_right₀ (by decide : (1 : Rat) < 2)).mp hlt
  omega

theorem binaryOrder_lt {q : Rat} (hq : 0 < q) {e : Int} (h : q < (2 : Rat) ^ e) :
    binaryOrder q < e := by
  have hlt : (2 : Rat) ^ binaryOrder q < (2 : Rat) ^ e :=
    lt_of_le_of_lt (binaryOrder_bounds hq).1 h
  exact (zpow_lt_zpow_iff_right₀ (by decide : (1 : Rat) < 2)).mp hlt

/-! ## §2. Rounding. -/

/-- An integer is its own neighbour. -/
theorem roundHalfEven_natCast (n : Nat) : roundHalfEven (n : Rat) = n := by
  have hfloor : (n : Rat).floor = (n : Int) := Rat.floor_intCast (n : Int)
  have hrest : (n : Rat) - ((n : Int) : Rat) = 0 := sub_self (n : Rat)
  unfold roundHalfEven
  simp only [hfloor, hrest]
  exact if_pos (by norm_num)

/-- What is less than a half goes to zero. -/
theorem roundHalfEven_of_lt_half {q : Rat} (hq : 0 ≤ q) (h : q < 1 / 2) : roundHalfEven q = 0 := by
  have hfloor : q.floor = 0 := by
    have hle : 0 ≤ q.floor := Rat.le_floor_iff.mpr hq
    have hlt : q.floor < 1 := Rat.floor_lt_iff.mpr (lt_trans h (by norm_num))
    omega
  have hrest : q - ((0 : Int) : Rat) = q := sub_zero q
  unfold roundHalfEven
  simp only [hfloor, hrest, if_pos h]

end Number

namespace Binary64

open Number

/-! ## §3. Doubles are their own neighbours. -/

/-- A finite double has a scale no finer than that of the subnormal numbers. -/
theorem le_scale (x : Binary64) : -1074 ≤ x.scale := by
  unfold scale
  have : 1 ≤ max 1 x.exponentField.val := Nat.le_max_left _ _
  omega

theorem significand_eq_zero {x : Binary64} : x.significand = 0 ↔ x.isZero = true := by
  unfold significand isZero
  by_cases he : x.exponentField.val = 0
  · simp [he]
  · simp [he]

theorem significand_ne_zero {x : Binary64} (hzero : x.isZero = false) : x.significand ≠ 0 := by
  intro h
  rw [significand_eq_zero, hzero] at h
  cases h

theorem magnitude_pos {x : Binary64} (hzero : x.isZero = false) : 0 < x.magnitude := by
  have hpos : (0 : Rat) < x.significand := by
    exact_mod_cast Nat.pos_of_ne_zero (significand_ne_zero hzero)
  exact mul_pos hpos (two_zpow_pos _)

/-- A double is normal, with a leading bit that is not stored, or subnormal, with the smallest
scale there is. -/
theorem normal_or_subnormal (x : Binary64) :
    4503599627370496 ≤ x.significand ∧ x.significand < 9007199254740992
        ∧ x.scale = x.exponentField.val - 1075 ∧ 1 ≤ x.exponentField.val
        ∧ x.significand = 4503599627370496 + x.fraction.val ∨
      x.significand < 4503599627370496 ∧ x.scale = -1074 ∧ x.exponentField.val = 0
        ∧ x.significand = x.fraction.val := by
  have hfraction := x.fraction.isLt
  unfold significand scale
  by_cases he : x.exponentField.val = 0
  · right
    rw [if_pos he, he]
    exact ⟨hfraction, by decide, rfl, rfl⟩
  · left
    rw [if_neg he]
    have hmax : max 1 x.exponentField.val = x.exponentField.val := by omega
    rw [hmax]
    refine ⟨by omega, by omega, rfl, by omega, rfl⟩

/-- The doubles around the magnitude of a finite double are as far apart as its scale says. -/
theorem spacing_magnitude {x : Binary64} (hzero : x.isZero = false) :
    spacing x.magnitude = x.scale := by
  have hscale := le_scale x
  have hpos := magnitude_pos hzero
  have hpow : ∀ n : Nat, (2 : Rat) ^ ((n : Int) + x.scale)
      = ((2 ^ n : Nat) : Rat) * (2 : Rat) ^ x.scale := by
    intro n
    rw [Rat.zpow_add (by decide), two_zpow_natCast]
  unfold spacing
  rcases normal_or_subnormal x with ⟨hlow, hhigh, -⟩ | ⟨hhigh, hsub, -⟩
  -- A normal double has 53 bits, so its order is its scale plus 52, and the spacing the scale.
  · have hle : 52 + x.scale ≤ binaryOrder x.magnitude := by
      apply le_binaryOrder
      rw [show (52 : Int) = ((52 : Nat) : Int) from rfl, hpow]
      exact mul_le_mul_of_nonneg_right (by exact_mod_cast hlow) (le_of_lt (two_zpow_pos _))
    have hlt : binaryOrder x.magnitude < 53 + x.scale := by
      apply binaryOrder_lt hpos
      rw [show (53 : Int) = ((53 : Nat) : Int) from rfl, hpow]
      exact mul_lt_mul_of_pos_right (by exact_mod_cast hhigh) (two_zpow_pos _)
    omega
  -- A subnormal one has fewer bits, and the spacing cannot get any smaller.
  · have hlt : binaryOrder x.magnitude < 52 + x.scale := by
      apply binaryOrder_lt hpos
      rw [show (52 : Int) = ((52 : Nat) : Int) from rfl, hpow]
      exact mul_lt_mul_of_pos_right (by exact_mod_cast hhigh) (two_zpow_pos _)
    omega

/-- The code of a double is made of its scale and its significand. -/
theorem ofCode?_of_isFinite {x : Binary64} (hx : x.isFinite = true) :
    ofCode? x.negative ((x.scale + 1074).toNat * 4503599627370496 + x.significand) = some x := by
  have hfield : x.exponentField.val ≠ 2047 := by simpa [isFinite] using hx
  have hlt := x.exponentField.isLt
  have hfraction := x.fraction.isLt
  obtain ⟨code, hcode⟩ : ∃ code,
      code = (x.scale + 1074).toNat * 4503599627370496 + x.significand := ⟨_, rfl⟩
  have hfields : code = x.exponentField.val * 4503599627370496 + x.fraction.val := by
    -- A normal double has its leading bit in the significand, which raises the field by one.
    rcases normal_or_subnormal x with ⟨-, -, hscale, hone, hsig⟩ | ⟨-, hscale, hzero, hsig⟩
    · rw [hcode, hscale, hsig]
      omega
    · rw [hcode, hscale, hsig, hzero]
      omega
  rw [← hcode]
  unfold ofCode?
  rw [if_pos (by omega)]
  obtain ⟨negative, exponentField, fraction⟩ := x
  simp only [ofFields, Option.some.injEq, mk.injEq, true_and]
  simp only at hfields hfraction hlt
  refine ⟨Fin.ext ?_, Fin.ext ?_⟩
  · show code / 4503599627370496 % 2048 = exponentField.val
    omega
  · show code % 4503599627370496 = fraction.val
    omega

/-- **Rounding leaves doubles alone**: the double nearest to the magnitude of a finite double is
that double. -/
theorem nearest?_magnitude {x : Binary64} (hx : x.isFinite = true) :
    nearest? x.negative x.magnitude = some x := by
  have hcode := ofCode?_of_isFinite hx
  unfold nearest?
  cases hzero : x.isZero with
  | true =>
    have hsig : x.significand = 0 := significand_eq_zero.mpr hzero
    have hscale : (x.scale + 1074).toNat = 0 := by
      rcases normal_or_subnormal x with ⟨hlow, -⟩ | ⟨-, hscale, -⟩
      · omega
      · rw [hscale]; rfl
    have hmagnitude : x.magnitude = 0 := by
      unfold magnitude
      rw [hsig]
      exact zero_mul _
    rw [if_pos hmagnitude, ← hcode, hscale, hsig]
  | false =>
    -- Measured in steps the magnitude is the significand, so there is nothing to round.
    have hquotient : x.magnitude / (2 : Rat) ^ x.scale = (x.significand : Rat) := by
      unfold magnitude
      exact mul_div_cancel_right₀ _ (ne_of_gt (two_zpow_pos _))
    rw [if_neg (ne_of_gt (magnitude_pos hzero))]
    simp only [spacing_magnitude hzero, hquotient, roundHalfEven_natCast]
    exact hcode

/-! ## §4. Far outside the range of doubles. -/

/-- What is much smaller than the smallest positive double is read as zero. -/
theorem nearest?_of_lt_tiny {q : Rat} (hq : 0 ≤ q) (h : q < (2 : Rat) ^ (-1076 : Int))
    (negative : Bool) : nearest? negative q = nearest? negative 0 := by
  rcases eq_or_lt_of_le hq with rfl | hpos
  · rfl
  · -- Around `q` doubles are as close as they get, and `q` is less than half a step.
    have hspacing : spacing q = -1074 := by
      have := binaryOrder_lt hpos h
      unfold spacing
      omega
    have hround : roundHalfEven (q / (2 : Rat) ^ (-1074 : Int)) = 0 := by
      apply roundHalfEven_of_lt_half (div_nonneg hq (le_of_lt (two_zpow_pos _)))
      rw [Rat.div_lt_iff (two_zpow_pos _)]
      calc q < (2 : Rat) ^ (-1076 : Int) := h
        _ = (2 : Rat) ^ (-2 : Int) * (2 : Rat) ^ (-1074 : Int) := by
            rw [← Rat.zpow_add (by decide)]; rfl
        _ ≤ 1 / 2 * (2 : Rat) ^ (-1074 : Int) :=
            mul_le_mul_of_nonneg_right (by norm_num) (le_of_lt (two_zpow_pos _))
    unfold nearest?
    rw [if_neg (ne_of_gt hpos), if_pos rfl]
    simp only [hspacing, hround]
    rfl

/-- What is much larger than the largest double is refused. -/
theorem nearest?_of_huge {q : Rat} (h : (2 : Rat) ^ (1025 : Int) ≤ q) (negative : Bool) :
    nearest? negative q = none := by
  have hpos : 0 < q := lt_of_lt_of_le (two_zpow_pos _) h
  -- The scale alone makes the code too large, whatever the significand.
  have horder : 1025 ≤ binaryOrder q := le_binaryOrder h
  have hspacing : 973 ≤ spacing q := by
    unfold spacing
    omega
  unfold nearest?
  rw [if_neg (ne_of_gt hpos)]
  unfold ofCode?
  rw [if_neg]
  omega

/-! ## §5. Rounding brings finite doubles. -/

theorem isFinite_of_ofCode? {negative : Bool} {code : Nat} {x : Binary64}
    (h : ofCode? negative code = some x) : x.isFinite = true := by
  unfold ofCode? at h
  split at h
  · next hcode =>
    obtain rfl := Option.some.inj h
    -- The largest codes that are left have the exponent field 2046.
    have hfield : code / 4503599627370496 % 2048 ≠ 2047 := by omega
    unfold isFinite
    rw [bne_iff_ne]
    exact hfield
  · cases h

theorem isFinite_of_nearest? {negative : Bool} {q : Rat} {x : Binary64}
    (h : nearest? negative q = some x) : x.isFinite = true := by
  unfold nearest? at h
  split at h
  · exact isFinite_of_ofCode? h
  · exact isFinite_of_ofCode? h

/-- **The nearest double is neither an infinity nor a NaN.** -/
theorem isFinite_of_ofRat? {q : Rat} {x : Binary64} (h : ofRat? q = some x) :
    x.isFinite = true := by
  unfold ofRat? at h
  split at h
  · exact isFinite_of_nearest? h
  · exact isFinite_of_nearest? h

end Binary64

end PolicyLookup
