/-
  PolicyLookup.Proofs.Number.Rounding — rounding to doubles goes to the nearest one.

  The doubles at least as far apart as those around a number are whole multiples of their spacing,
  and the number is rounded to the nearest multiple.  All doubles that are closer together are below
  a multiple that is below the number itself, so none of them is nearer.

    * `roundHalfEven_nearest` — rounding to integers.
    * `nearest?_nearest` — rounding of magnitudes.
    * `isNearest_iff` — the nearest double, or the even one of two, is what rounding brings.
    * `exists_ofRat?_iff` — which numbers have one.
-/

import Mathlib.Algebra.Order.Group.Abs
import Mathlib.Tactic.ByContra
import Mathlib.Tactic.Linarith
import Mathlib.Tactic.Ring
import PolicyLookup.Proofs.Number.Shortest

namespace PolicyLookup

namespace Number

/-! ## §1. Rounding to integers. -/

/-- A number is rounded down or up, and if it lies in the middle, to the even one of the two. -/
theorem roundHalfEven_cases (r : Rat) :
    (roundHalfEven r = r.floor ∧ r - r.floor < 1 / 2) ∨
    (roundHalfEven r = r.floor + 1 ∧ 1 / 2 < r - r.floor) ∨
    (r - r.floor = 1 / 2 ∧ roundHalfEven r % 2 = 0 ∧
      (roundHalfEven r = r.floor ∨ roundHalfEven r = r.floor + 1)) := by
  unfold roundHalfEven
  simp only
  split
  · next h => exact Or.inl ⟨rfl, h⟩
  · next hlow =>
    split
    · next h => exact Or.inr (Or.inl ⟨rfl, h⟩)
    · next hhigh =>
      refine Or.inr (Or.inr ⟨le_antisymm (not_lt.mp hhigh) (not_lt.mp hlow), ?_⟩)
      split
      · next h => exact ⟨h, Or.inl rfl⟩
      · next h => exact ⟨by omega, Or.inr rfl⟩

/-- A number is rounded to one of its two neighbours. -/
theorem roundHalfEven_bounds (r : Rat) :
    r.floor ≤ roundHalfEven r ∧ roundHalfEven r ≤ r.floor + 1 := by
  rcases roundHalfEven_cases r with ⟨h, -⟩ | ⟨h, -⟩ | ⟨-, -, h | h⟩ <;> omega

/-- Rounding changes a number by a half at most, and by a half only towards an even integer. -/
theorem roundHalfEven_error (r : Rat) :
    |(roundHalfEven r : Rat) - r| ≤ 1 / 2 ∧
      (|(roundHalfEven r : Rat) - r| = 1 / 2 → roundHalfEven r % 2 = 0) := by
  have hdown : |(r.floor : Rat) - r| = r - r.floor := by
    rw [abs_sub_comm]
    exact abs_of_nonneg (sub_nonneg.mpr (Rat.le_floor_iff.mp le_rfl))
  have hup : |((r.floor + 1 : Int) : Rat) - r| = 1 - (r - r.floor) := by
    have hlt : r < ((r.floor + 1 : Int) : Rat) := Rat.floor_lt_iff.mp (by omega)
    rw [abs_of_pos (sub_pos.mpr hlt)]
    push_cast
    ring
  rcases roundHalfEven_cases r with ⟨h, hrest⟩ | ⟨h, hrest⟩ | ⟨hrest, heven, h | h⟩
  · rw [h, hdown]
    exact ⟨le_of_lt hrest, fun heq => absurd heq (ne_of_lt hrest)⟩
  · rw [h, hup]
    exact ⟨by linarith, fun heq => absurd heq (by linarith)⟩
  · refine ⟨?_, fun _ => heven⟩
    rw [h, hdown, hrest]
  · refine ⟨?_, fun _ => heven⟩
    rw [h, hup, hrest]
    norm_num

/-- **No integer is nearer than the one that a number is rounded to**; and if another one is as
near, that one is odd, and the number is rounded to an even one. -/
theorem roundHalfEven_nearest (r : Rat) {m : Int} (hne : m ≠ roundHalfEven r) :
    |(roundHalfEven r : Rat) - r| ≤ |(m : Rat) - r| ∧
      (|(m : Rat) - r| = |(roundHalfEven r : Rat) - r| →
        roundHalfEven r % 2 = 0 ∧ m % 2 = 1) := by
  obtain ⟨hhalf, heven⟩ := roundHalfEven_error r
  -- Two integers are at least one apart, and the way from one to the other leads past the number.
  have hone : (1 : Rat) ≤ |(m : Rat) - roundHalfEven r| := by
    have hint : (1 : Int) ≤ |m - roundHalfEven r| := Int.one_le_abs (sub_ne_zero.mpr hne)
    exact_mod_cast hint
  have hway : |(m : Rat) - roundHalfEven r| ≤ |(m : Rat) - r| + |(roundHalfEven r : Rat) - r| := by
    rw [abs_sub_comm (roundHalfEven r : Rat) r]
    exact abs_sub_le _ _ _
  refine ⟨by linarith, fun heq => ?_⟩
  have hzero : roundHalfEven r % 2 = 0 := heven (by linarith)
  have hnext : |(m : Rat) - roundHalfEven r| ≤ 1 := by linarith
  have hint : |m - roundHalfEven r| ≤ 1 := by exact_mod_cast hnext
  rw [abs_le] at hint
  exact ⟨hzero, by omega⟩

end Number

namespace Binary64

open Number

/-! ## §2. The spacing of doubles. -/

/-- A positive number has 53 bits at most before the spacing of the doubles around it. -/
theorem lt_two_zpow_spacing {q : Rat} (hq : 0 < q) :
    q < 9007199254740992 * (2 : Rat) ^ spacing q := by
  have hpow : (9007199254740992 : Rat) * (2 : Rat) ^ spacing q = (2 : Rat) ^ (53 + spacing q) := by
    rw [Rat.zpow_add (by decide)]
    norm_num
  rw [hpow]
  refine lt_of_lt_of_le (binaryOrder_bounds hq).2 ?_
  refine (zpow_le_zpow_iff_right₀ (by decide : (1 : Rat) < 2)).mpr ?_
  unfold spacing
  omega

/-- It has all 53, unless the spacing is that of the subnormal numbers. -/
theorem two_zpow_spacing_le {q : Rat} (hq : 0 < q) (h : spacing q ≠ -1074) :
    4503599627370496 * (2 : Rat) ^ spacing q ≤ q := by
  have hpow : (4503599627370496 : Rat) * (2 : Rat) ^ spacing q = (2 : Rat) ^ (52 + spacing q) := by
    rw [Rat.zpow_add (by decide)]
    norm_num
  rw [hpow]
  refine le_trans ?_ (binaryOrder_bounds hq).1
  refine (zpow_le_zpow_iff_right₀ (by decide : (1 : Rat) < 2)).mpr ?_
  unfold spacing at h ⊢
  omega

/-! ## §3. The double of a code. -/

/-- The double of a code has the fields that the code is made of. -/
theorem fields_of_ofCode? {negative : Bool} {code : Nat} {x : Binary64}
    (h : ofCode? negative code = some x) :
    x.negative = negative ∧ x.exponentField.val * 4503599627370496 + x.fraction.val = code := by
  unfold ofCode? at h
  split at h
  · next hcode =>
    obtain rfl := Option.some.inj h
    refine ⟨rfl, ?_⟩
    show code / 4503599627370496 % 2048 * 4503599627370496 + code % 4503599627370496 = code
    omega
  · cases h

/-- A whole multiple of a spacing is the magnitude of the double that is made of it. -/
theorem magnitude_of_ofCode? {negative : Bool} {e : Int} {n : Nat} {x : Binary64} (he : -1074 ≤ e)
    (hhigh : n ≤ 9007199254740992) (hlow : 4503599627370496 ≤ n ∨ e = -1074)
    (h : ofCode? negative ((e + 1074).toNat * 4503599627370496 + n) = some x) :
    x.magnitude = n * (2 : Rat) ^ e ∧ (n % 2 = 0 → x.significand % 2 = 0) := by
  obtain ⟨-, hfields⟩ := fields_of_ofCode? h
  have hfraction := x.fraction.isLt
  -- A significand that has been rounded up to a power of two has the next larger scale.
  have hparts : x.significand = n ∧ x.scale = e ∨
      n = 9007199254740992 ∧ x.significand = 4503599627370496 ∧ x.scale = e + 1 := by
    rcases normal_or_subnormal x with ⟨-, -, hscale, hone, hsig⟩ | ⟨-, hscale, hzero, hsig⟩
    · omega
    · omega
  unfold magnitude
  rcases hparts with ⟨hsig, hscale⟩ | ⟨hn, hsig, hscale⟩
  · rw [hsig, hscale]
    exact ⟨rfl, id⟩
  · rw [hsig, hscale, hn, Rat.zpow_add_one (by decide)]
    refine ⟨?_, fun _ => by decide⟩
    push_cast
    ring

/-! ## §4. Magnitudes. -/

/-- Distances in units of a power of two. -/
theorem abs_mul_two_zpow_sub (k q : Rat) (e : Int) :
    |k * (2 : Rat) ^ e - q| = |k - q / (2 : Rat) ^ e| * (2 : Rat) ^ e := by
  have hpos := two_zpow_pos e
  have hunits : k * (2 : Rat) ^ e - q = (k - q / (2 : Rat) ^ e) * (2 : Rat) ^ e := by
    rw [sub_mul, div_mul_cancel₀ _ (ne_of_gt hpos)]
  rw [hunits, abs_mul, abs_of_pos hpos]

/-- A double whose scale is not below a spacing is a whole multiple of the spacing; if the multiple
is odd, so is the significand. -/
theorem exists_multiple {y : Binary64} {e : Int} (h : e ≤ y.scale) :
    ∃ m : Int, y.magnitude = m * (2 : Rat) ^ e ∧ (m % 2 = 1 → y.significand % 2 = 1) := by
  obtain ⟨k, hk⟩ : ∃ k : Nat, y.scale = k + e := ⟨(y.scale - e).toNat, by omega⟩
  refine ⟨(y.significand * 2 ^ k : Nat), ?_, fun hodd => ?_⟩
  · unfold magnitude
    rw [hk, Rat.zpow_add (by decide), two_zpow_natCast, ← mul_assoc]
    push_cast
    rfl
  · have hnat : y.significand * 2 ^ k % 2 = 1 := by exact_mod_cast hodd
    exact Nat.odd_iff.mp (Nat.odd_mul.mp (Nat.odd_iff.mpr hnat)).1

/-- A double whose scale is below a spacing is below all multiples with 53 bits. -/
theorem magnitude_lt {y : Binary64} {e : Int} (h : y.scale < e) :
    y.magnitude < 4503599627370496 * (2 : Rat) ^ e := by
  have hsig : (y.significand : Rat) < 9007199254740992 := by
    have hnat : y.significand < 9007199254740992 := by
      rcases normal_or_subnormal y with ⟨-, hlt, -⟩ | ⟨hlt, -⟩ <;> omega
    exact_mod_cast hnat
  calc y.magnitude < 9007199254740992 * (2 : Rat) ^ y.scale :=
        mul_lt_mul_of_pos_right hsig (two_zpow_pos _)
    _ = 4503599627370496 * (2 : Rat) ^ (y.scale + 1) := by
        rw [Rat.zpow_add_one (by decide)]
        ring
    _ ≤ 4503599627370496 * (2 : Rat) ^ e := by
        refine mul_le_mul_of_nonneg_left ?_ (by norm_num)
        exact (zpow_le_zpow_iff_right₀ (by decide : (1 : Rat) < 2)).mpr (by omega)

/-- The multiple of the spacing that a positive number is rounded to has 53 bits, or is one more
than that; it has less only where doubles are as close as they get. -/
theorem roundHalfEven_spacing {q : Rat} (hq : 0 < q) :
    ∃ n : Nat, roundHalfEven (q / (2 : Rat) ^ spacing q) = n ∧ n ≤ 9007199254740992 ∧
      (4503599627370496 ≤ n ∨ spacing q = -1074) := by
  have hpos := two_zpow_pos (spacing q)
  obtain ⟨r, hr⟩ : ∃ r, r = q / (2 : Rat) ^ spacing q := ⟨_, rfl⟩
  obtain ⟨hlow, hhigh⟩ := roundHalfEven_bounds r
  have hnonneg : 0 ≤ r.floor := Rat.le_floor_iff.mpr (hr ▸ le_of_lt (div_pos hq hpos))
  have hlt : r.floor < 9007199254740992 := by
    refine Rat.floor_lt_iff.mpr ?_
    rw [hr, div_lt_iff₀ hpos]
    exact lt_two_zpow_spacing hq
  rw [← hr]
  refine ⟨(roundHalfEven r).toNat, by omega, by omega, ?_⟩
  by_cases hspacing : spacing q = -1074
  · exact Or.inr hspacing
  · have hle : 4503599627370496 ≤ r.floor := by
      refine Rat.le_floor_iff.mpr ?_
      rw [hr, le_div_iff₀ hpos]
      exact two_zpow_spacing_le hq hspacing
    omega

/-- A positive magnitude is rounded to a multiple of the spacing. -/
theorem magnitude_of_nearest? {negative : Bool} {q : Rat} {x : Binary64} (hq : 0 < q)
    (h : nearest? negative q = some x) :
    x.magnitude = roundHalfEven (q / (2 : Rat) ^ spacing q) * (2 : Rat) ^ spacing q ∧
      (roundHalfEven (q / (2 : Rat) ^ spacing q) % 2 = 0 → x.significand % 2 = 0) := by
  obtain ⟨n, hround, hhigh, hlow⟩ := roundHalfEven_spacing hq
  have hspacing : -1074 ≤ spacing q := by
    unfold spacing
    omega
  unfold nearest? at h
  rw [if_neg (ne_of_gt hq)] at h
  simp only [hround, Int.toNat_natCast] at h
  obtain ⟨hmagnitude, heven⟩ := magnitude_of_ofCode? hspacing hhigh hlow h
  rw [hround, hmagnitude]
  exact ⟨rfl, fun hn => heven (by exact_mod_cast hn)⟩

/-- Doubles that are closer together than those around a number are farther from it than the one
that it is rounded to. -/
theorem lt_of_scale_lt_spacing {q : Rat} (hq : 0 < q) {y : Binary64} (hy : y.scale < spacing q) :
    |roundHalfEven (q / (2 : Rat) ^ spacing q) * (2 : Rat) ^ spacing q - q|
      < |y.magnitude - q| := by
  have hscale := le_scale y
  have hbase := two_zpow_spacing_le hq (by omega)
  have hbelow := magnitude_lt hy
  -- The least multiple with 53 bits lies between such a double and the number.
  have hnear : |(roundHalfEven (q / (2 : Rat) ^ spacing q) : Rat) - q / (2 : Rat) ^ spacing q| ≤
      |((4503599627370496 : Int) : Rat) - q / (2 : Rat) ^ spacing q| := by
    by_cases heq : 4503599627370496 = roundHalfEven (q / (2 : Rat) ^ spacing q)
    · rw [← heq]
    · exact (roundHalfEven_nearest _ heq).1
  calc |roundHalfEven (q / (2 : Rat) ^ spacing q) * (2 : Rat) ^ spacing q - q|
      ≤ |((4503599627370496 : Int) : Rat) * (2 : Rat) ^ spacing q - q| := by
        rw [abs_mul_two_zpow_sub, abs_mul_two_zpow_sub]
        exact mul_le_mul_of_nonneg_right hnear (le_of_lt (two_zpow_pos _))
    _ = q - 4503599627370496 * (2 : Rat) ^ spacing q := by
        rw [abs_sub_comm]
        exact abs_of_nonneg (sub_nonneg.mpr hbase)
    _ < q - y.magnitude := sub_lt_sub_left hbelow q
    _ ≤ |y.magnitude - q| := by
        rw [abs_sub_comm]
        exact le_abs_self _

/-- **No double is nearer to a magnitude than the one that it is rounded to**; and if another one is
as near, that one has an odd significand, and the magnitude is rounded to an even one. -/
theorem nearest?_nearest {negative : Bool} {q : Rat} {x y : Binary64} (hq : 0 ≤ q)
    (h : nearest? negative q = some x) (hne : y.magnitude ≠ x.magnitude) :
    |x.magnitude - q| ≤ |y.magnitude - q| ∧
      (|y.magnitude - q| = |x.magnitude - q| →
        x.significand % 2 = 0 ∧ y.significand % 2 = 1) := by
  rcases eq_or_lt_of_le hq with rfl | hpos
  · have hzero : x.magnitude = 0 := by
      unfold magnitude
      rw [significand_eq_zero.mpr (isZero_of_nearest?_zero h)]
      exact zero_mul _
    rw [hzero] at hne ⊢
    rw [sub_zero, sub_zero, abs_zero]
    exact ⟨abs_nonneg _, fun heq => absurd (abs_eq_zero.mp heq) hne⟩
  · obtain ⟨hx, heven⟩ := magnitude_of_nearest? hpos h
    rw [hx] at hne ⊢
    -- Doubles that are as far apart as those around the number are multiples of their spacing, and
    -- among multiples the nearest has been chosen; all other doubles are farther away.
    by_cases hscale : spacing q ≤ y.scale
    · obtain ⟨m, hm, hodd⟩ := exists_multiple hscale
      rw [hm] at hne ⊢
      obtain ⟨hle, htie⟩ := roundHalfEven_nearest (q / (2 : Rat) ^ spacing q)
        (m := m) fun heq => hne (by rw [heq])
      rw [abs_mul_two_zpow_sub, abs_mul_two_zpow_sub]
      refine ⟨mul_le_mul_of_nonneg_right hle (le_of_lt (two_zpow_pos _)), fun heq => ?_⟩
      obtain ⟨hx, hy⟩ := htie (mul_right_cancel₀ (ne_of_gt (two_zpow_pos _)) heq)
      exact ⟨heven hx, hodd hy⟩
    · have hlt := lt_of_scale_lt_spacing hpos (not_le.mp hscale)
      exact ⟨le_of_lt hlt, fun heq => absurd heq (ne_of_gt hlt)⟩

/-! ## §5. Numbers of both signs. -/

/-- **The nearest double**: no finite double is nearer, its significand is even if another magnitude
is as near, and it has the sign of the number, also if it is a zero. -/
structure IsNearest (q : Rat) (x : Binary64) : Prop where
  finite : x.isFinite = true
  sign : x.negative = decide (q < 0)
  nearest : ∀ y : Binary64, y.isFinite = true → |x.toRat - q| ≤ |y.toRat - q|
  even : ∀ y : Binary64, y.isFinite = true → y.magnitude ≠ x.magnitude →
    |y.toRat - q| = |x.toRat - q| → x.significand % 2 = 0

theorem abs_toRat (x : Binary64) : |x.toRat| = x.magnitude := by
  have hnonneg : 0 ≤ x.magnitude := mul_nonneg (Nat.cast_nonneg _) (le_of_lt (two_zpow_pos _))
  unfold toRat
  split
  · rw [abs_neg, abs_of_nonneg hnonneg]
  · exact abs_of_nonneg hnonneg

/-- Magnitudes are not farther apart than numbers. -/
theorem abs_magnitude_sub_le (y : Binary64) (q : Rat) : |y.magnitude - (|q|)| ≤ |y.toRat - q| := by
  rw [← abs_toRat]
  exact abs_abs_sub_abs_le_abs_sub _ _

/-- With the sign of the number a double is as far from it as the magnitudes are apart. -/
theorem abs_toRat_sub {x : Binary64} {q : Rat} (h : x.negative = decide (q < 0)) :
    |x.toRat - q| = |x.magnitude - (|q|)| := by
  unfold toRat
  by_cases hq : q < 0
  · rw [h, decide_eq_true hq, if_pos rfl, abs_of_neg hq, ← abs_neg]
    congr 1
    ring
  · rw [h, decide_eq_false hq, if_neg (by decide), abs_of_nonneg (not_lt.mp hq)]

/-- Rounding keeps the sign and rounds the magnitude. -/
theorem nearest?_of_ofRat? {q : Rat} {x : Binary64} (h : ofRat? q = some x) :
    nearest? (decide (q < 0)) |q| = some x := by
  unfold ofRat? at h
  split at h
  · next hq => rwa [decide_eq_true hq, abs_of_neg hq]
  · next hq => rwa [decide_eq_false hq, abs_of_nonneg (not_lt.mp hq)]

theorem negative_of_nearest? {negative : Bool} {q : Rat} {x : Binary64}
    (h : nearest? negative q = some x) : x.negative = negative := by
  unfold nearest? at h
  split at h
  · exact (fields_of_ofCode? h).1
  · exact (fields_of_ofCode? h).1

/-- **Rounding brings the nearest double.** -/
theorem isNearest_of_ofRat? {q : Rat} {x : Binary64} (h : ofRat? q = some x) : IsNearest q x := by
  have hround := nearest?_of_ofRat? h
  have hsign := negative_of_nearest? hround
  have hdistance := abs_toRat_sub hsign
  constructor
  case finite => exact isFinite_of_nearest? hround
  case sign => exact hsign
  case nearest =>
    intro y _
    -- With the sign of the number `y` would be at most as far, and then magnitudes decide.
    rw [hdistance]
    refine le_trans ?_ (abs_magnitude_sub_le y q)
    by_cases hne : y.magnitude = x.magnitude
    · rw [hne]
    · exact (nearest?_nearest (abs_nonneg q) hround hne).1
  case even =>
    intro y _ hne heq
    obtain ⟨hle, htie⟩ := nearest?_nearest (abs_nonneg q) hround hne
    have hy := abs_magnitude_sub_le y q
    rw [heq, hdistance] at hy
    exact (htie (le_antisymm hy hle)).1

/-- **Rounding brings nothing else**: of all doubles it is the only nearest one. -/
theorem isNearest_iff {q : Rat} {x y : Binary64} (h : ofRat? q = some x) :
    IsNearest q y ↔ y = x := by
  have hx := isNearest_of_ofRat? h
  constructor
  · intro hy
    have hround := nearest?_of_ofRat? h
    have heq : |y.toRat - q| = |x.toRat - q| :=
      le_antisymm (hy.nearest x hx.finite) (hx.nearest y hy.finite)
    have hmagnitude : y.magnitude = x.magnitude := by
      by_contra hne
      -- Of two magnitudes that are equally near only one has an even significand.
      have heven := hy.even x hx.finite (Ne.symm hne) heq.symm
      rw [abs_toRat_sub hx.sign, abs_toRat_sub hy.sign] at heq
      have hodd := ((nearest?_nearest (abs_nonneg q) hround hne).2 heq).2
      omega
    have hnearest := nearest?_magnitude hy.finite
    rw [hmagnitude, hy.sign, ← hx.sign, nearest?_magnitude hx.finite] at hnearest
    exact (Option.some.inj hnearest).symm
  · rintro rfl
    exact hx

/-! ## §6. The range of doubles. -/

/-- From here on magnitudes overflow: the middle between the largest double and `2 ^ 1024`. -/
def overflowBound : Rat := 18014398509481983 * (2 : Rat) ^ (970 : Int)

theorem overflowBound_pos : 0 < overflowBound := mul_pos (by norm_num) (two_zpow_pos _)

/-- A number is rounded past an odd integer exactly if it is not below the middle behind it. -/
theorem roundHalfEven_le_iff {m : Int} (hodd : m % 2 = 1) (r : Rat) :
    roundHalfEven r ≤ m ↔ r < m + 1 / 2 := by
  have hfloor : (r.floor : Rat) ≤ r := Rat.le_floor_iff.mp le_rfl
  have hnext : r < ((r.floor + 1 : Int) : Rat) := Rat.floor_lt_iff.mp (by omega)
  obtain ⟨hlow, hhigh⟩ := roundHalfEven_bounds r
  rcases lt_trichotomy r.floor m with hlt | heq | hgt
  · have hle : ((r.floor + 1 : Int) : Rat) ≤ m := by exact_mod_cast hlt
    exact iff_of_true (by omega) (by linarith)
  -- Within the step from the integer to the next one, the middle decides.
  · rw [← heq]
    rcases roundHalfEven_cases r with ⟨h, hrest⟩ | ⟨h, hrest⟩ | ⟨hrest, heven, -⟩
    · exact iff_of_true (by omega) (by linarith)
    · exact iff_of_false (by omega) (by linarith)
    · exact iff_of_false (by omega) (by linarith)
  · have hle : ((m + 1 : Int) : Rat) ≤ r.floor := by exact_mod_cast hgt
    push_cast at hle
    exact iff_of_false (by omega) (by linarith)

theorem exists_ofCode?_iff {negative : Bool} {code : Nat} :
    (∃ x, ofCode? negative code = some x) ↔ code < 9218868437227405312 := by
  unfold ofCode?
  split
  · next h => exact iff_of_true ⟨_, rfl⟩ h
  · next h => exact iff_of_false nofun h

/-- A positive magnitude has a nearest double exactly if it is below the bound. -/
theorem exists_nearest?_iff {q : Rat} (hq : 0 < q) (negative : Bool) :
    (∃ x, nearest? negative q = some x) ↔ q < overflowBound := by
  obtain ⟨n, hround, hhigh, hlow⟩ := roundHalfEven_spacing hq
  obtain ⟨unit, hunit⟩ : ∃ unit, unit = (2 : Rat) ^ (970 : Int) := ⟨_, rfl⟩
  have hpos : 0 < unit := hunit ▸ two_zpow_pos 970
  unfold nearest? overflowBound
  rw [if_neg (ne_of_gt hq), ← hunit]
  simp only [hround, Int.toNat_natCast, exists_ofCode?_iff]
  rcases lt_trichotomy (spacing q) 971 with hlt | heq | hgt
  · have hbelow := lt_two_zpow_spacing hq
    have hscale : (2 : Rat) ^ spacing q ≤ unit :=
      hunit ▸ (zpow_le_zpow_iff_right₀ (by decide : (1 : Rat) < 2)).mpr (by omega)
    exact iff_of_true (by omega) (by linarith only [hbelow, hscale, hpos])
  -- With the scale of the largest double the significand decides.
  · have hstep : (2 : Rat) ^ (971 : Int) = unit * 2 := by
      rw [hunit]
      exact Rat.zpow_add_one (by decide) 970
    have hunits : q / (2 : Rat) ^ (971 : Int) < ((9007199254740991 : Int) : Rat) + 1 / 2 ↔
        q < 18014398509481983 * unit := by
      rw [div_lt_iff₀ (two_zpow_pos _), hstep]
      push_cast
      constructor <;> intro h <;> linarith
    rw [← hunits, ← roundHalfEven_le_iff (by decide), ← heq, hround]
    omega
  · have habove := two_zpow_spacing_le hq (by omega)
    have hstep : (2 : Rat) ^ (972 : Int) = unit * 4 := by
      rw [hunit, show (972 : Int) = 970 + 2 from rfl, Rat.zpow_add (by decide)]
      rfl
    have hscale : unit * 4 ≤ (2 : Rat) ^ spacing q :=
      hstep ▸ (zpow_le_zpow_iff_right₀ (by decide : (1 : Rat) < 2)).mpr (by omega)
    exact iff_of_false (by omega) (by linarith only [habove, hscale, hpos])

/-- **Which numbers have a nearest double**: those of magnitudes below the bound. -/
theorem exists_ofRat?_iff {q : Rat} : (∃ x, ofRat? q = some x) ↔ |q| < overflowBound := by
  unfold ofRat?
  rcases lt_trichotomy q 0 with hneg | rfl | hpos
  · rw [if_pos hneg, abs_of_neg hneg]
    exact exists_nearest?_iff (neg_pos.mpr hneg) true
  · rw [if_neg (lt_irrefl 0), abs_zero]
    exact iff_of_true ⟨ofFields false 0 0, by decide⟩ overflowBound_pos
  · rw [if_neg (not_lt.mpr (le_of_lt hpos)), abs_of_pos hpos]
    exact exists_nearest?_iff hpos false

end Binary64

end PolicyLookup
