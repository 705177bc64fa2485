/-
  PolicyLookup.Json.Literal — number texts of JSON.

  A literal without fraction and exponent that fits 64 bits, signed or unsigned, is an
  integer.  Every other one is the nearest double, and is refused if that overflows.
-/

import PolicyLookup.Json.Basic
import PolicyLookup.Number.Digits
import PolicyLookup.Number.Shortest

namespace PolicyLookup

namespace Json

open Number

/-- A number text, taken apart: `± coefficient · 10 ^ exponent`. -/
structure Literal where
  negative : Bool
  coefficient : Nat
  exponent : Int
  /-- Written with digits only. -/
  integral : Bool

namespace Literal

/-- The nearest double; exponents far outside the range of doubles are decided by size. -/
def toFloat? (l : Literal) : Option Binary64 :=
  let order := l.exponent + (digits l.coefficient).length
  if l.coefficient = 0 ∨ order < -400 then Binary64.nearest? l.negative 0
  else if 400 < order then none
  else Binary64.nearest? l.negative (Decimal.value ⟨l.coefficient, l.exponent⟩)

/-- The value of a literal written with digits only. -/
def toInt (l : Literal) : Int := if l.negative then -l.coefficient else l.coefficient

/-- Whether a literal is kept as an integer: digits only, in the signed or the unsigned range
of 64 bits, and not the negative zero. -/
def isInt (l : Literal) : Bool :=
  l.integral && decide (-9223372036854775808 ≤ l.toInt) && decide (l.toInt < 18446744073709551616)
    && !(l.negative && l.coefficient == 0)

/-- The number that a literal denotes. -/
def toJson? (l : Literal) : Option Json :=
  if l.isInt then some (.int l.toInt) else l.toFloat?.map .float

/-! ## §1. Reading. -/

/-- An optional sign. -/
def readSign (plus : Bool) : List Char → Bool × List Char
  | '-' :: cs => (true, cs)
  | '+' :: cs => if plus then (false, cs) else (false, '+' :: cs)
  | cs => (false, cs)

/-- The digits after a point, if there is one; a point without digits is refused. -/
def readFraction : List Char → Option (List Char × List Char)
  | '.' :: cs =>
    let ds := cs.takeWhile isDigit
    if ds.isEmpty then none else some (ds, cs.dropWhile isDigit)
  | cs => some ([], cs)

/-- The exponent after an `e`, if there is one; an exponent without digits is refused. -/
def readExponent : List Char → Option (Option Int × List Char)
  | [] => some (none, [])
  | c :: cs =>
    if c = 'e' ∨ c = 'E' then
      let (negative, rest) := readSign true cs
      let ds := rest.takeWhile isDigit
      if ds.isEmpty then none
      else
        let n : Int := ofDigits ds
        some (some (if negative then -n else n), rest.dropWhile isDigit)
    else some (none, c :: cs)

/-- The digits before the point: a single zero, or digits that do not start with one. -/
def readWhole : List Char → Option (List Char × List Char)
  | '0' :: cs => some (['0'], cs)
  | cs =>
    let ds := cs.takeWhile isDigit
    if ds.isEmpty then none else some (ds, cs.dropWhile isDigit)

/-- A number text at the start of the input, and the rest of it. -/
def read (cs : List Char) : Option (Literal × List Char) := do
  let (negative, cs) := readSign false cs
  let (whole, cs) ← readWhole cs
  let (fraction, cs) ← readFraction cs
  let (exponent, cs) ← readExponent cs
  return ({ negative
            coefficient := ofDigits (whole ++ fraction)
            exponent := exponent.getD 0 - fraction.length
            integral := fraction.isEmpty && exponent.isNone }, cs)

end Literal

end Json

end PolicyLookup
