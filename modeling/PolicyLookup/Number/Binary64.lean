/-
  PolicyLookup.Number.Binary64 — double-precision numbers by their fields.

  A double is kept as its sign, exponent field and fraction field, so that equality of
  doubles is identity of their 64 bits.  The value of a finite double is a rational number:
  `significand · 2 ^ scale`, with its sign.  `same` is the comparison of doubles as numbers,
  under which the two zeros agree and a NaN agrees with nothing.
-/

namespace PolicyLookup

/-- A 64-bit floating-point number of IEEE 754. -/
structure Binary64 where
  /-- The sign bit. -/
  negative : Bool
  /-- The biased exponent; 0 marks the subnormal numbers, 2047 the infinities and NaNs. -/
  exponentField : Fin 2048
  /-- The 52 bits of the significand that are stored. -/
  fraction : Fin 4503599627370496
deriving DecidableEq, Inhabited

namespace Binary64

/-! ## §1. Bits. -/

/-- The double with the given fields; what does not fit a field is cut off above. -/
def ofFields (negative : Bool) (exponentField fraction : Nat) : Binary64 where
  negative := negative
  exponentField := Fin.ofNat 2048 exponentField
  fraction := Fin.ofNat 4503599627370496 fraction

/-- The double with the given 64 bits; higher bits are ignored. -/
def ofBits (bits : Nat) : Binary64 :=
  ofFields (bits / 9223372036854775808 % 2 = 1) (bits / 4503599627370496) bits

/-- The 64 bits of a double, as a number. -/
def bits (x : Binary64) : Nat :=
  (if x.negative then 9223372036854775808 else 0)
    + x.exponentField.val * 4503599627370496 + x.fraction.val

/-! ## §2. Classes and values. -/

/-- Neither an infinity nor a NaN. -/
def isFinite (x : Binary64) : Bool := x.exponentField.val != 2047

/-- Not a number. -/
def isNaN (x : Binary64) : Bool := x.exponentField.val == 2047 && x.fraction.val != 0

/-- One of the two zeros. -/
def isZero (x : Binary64) : Bool := x.exponentField.val == 0 && x.fraction.val == 0

/-- The integer significand; normal numbers have a leading bit that is not stored. -/
def significand (x : Binary64) : Nat :=
  if x.exponentField.val = 0 then x.fraction.val else 4503599627370496 + x.fraction.val

/-- The power of two that the significand counts. -/
def scale (x : Binary64) : Int := (max 1 x.exponentField.val : Nat) - 1075

/-- The absolute value of a finite double. -/
def magnitude (x : Binary64) : Rat := (x.significand : Rat) * (2 : Rat) ^ x.scale

/-- The value of a finite double. -/
def toRat (x : Binary64) : Rat := if x.negative then -x.magnitude else x.magnitude

/-- Positive zero. -/
def zero : Binary64 := ⟨false, 0, 0⟩

/-- The infinity of a sign. -/
def infinity (negative : Bool) : Binary64 := ⟨negative, 2047, 0⟩

/-- Comparison of doubles as numbers: a NaN equals nothing, and the zeros are equal. -/
def same (x y : Binary64) : Bool :=
  !x.isNaN && !y.isNaN && (decide (x = y) || x.isZero && y.isZero)

/-! ## §3. Doubles that are not finite. -/

/-- A finite double is a number. -/
theorem isNaN_of_isFinite {x : Binary64} (hx : x.isFinite = true) : x.isNaN = false := by
  unfold isFinite at hx
  unfold isNaN
  rw [bne_iff_ne] at hx
  rw [beq_false_of_ne hx, Bool.false_and]

/-- A double that is neither finite nor a NaN is the infinity of its sign. -/
theorem eq_infinity {x : Binary64} (hfinite : x.isFinite = false) (hnan : x.isNaN = false) :
    x = infinity x.negative := by
  obtain ⟨negative, exponentField, fraction⟩ := x
  simp only [isFinite, bne_eq_false_iff_eq] at hfinite
  simp only [isNaN, hfinite, beq_self_eq_true, Bool.true_and, bne_eq_false_iff_eq] at hnan
  simp only [infinity, mk.injEq, true_and]
  exact ⟨Fin.ext hfinite, Fin.ext hnan⟩

end Binary64

end PolicyLookup
