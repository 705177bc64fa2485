/-
  PolicyLookup.Number.Nearest — the double nearest to a rational number.

  A magnitude is written as a multiple of the spacing of doubles around it and rounded to a
  whole multiple, halves going to the even one.  Consecutive doubles of one sign have
  consecutive codes `exponentField · 2 ^ 52 + fraction`, so a significand that rounds up to
  the next power of two needs no case of its own.
-/

import PolicyLookup.Number.Binary64

namespace PolicyLookup

namespace Number

/-- The nearest integer; a half goes to the even neighbour. -/
def roundHalfEven (q : Rat) : Int :=
  let down := q.floor
  let rest := q - down
  if rest < 1 / 2 then down
  else if 1 / 2 < rest then down + 1
  else if down % 2 = 0 then down else down + 1

/-- The nearest integer; a half goes away from zero. -/
def roundHalfAway (q : Rat) : Int :=
  if q < 0 then -((-q + 1 / 2).floor) else (q + 1 / 2).floor

/-- For a positive `q`, the `e` with `2 ^ e ≤ q < 2 ^ (e + 1)`. -/
def binaryOrder (q : Rat) : Int :=
  let e : Int := q.num.natAbs.log2 - q.den.log2
  if (2 : Rat) ^ e ≤ q then e else e - 1

end Number

namespace Binary64

open Number

/-- The double of the given sign and code, unless the code is past the largest finite one. -/
def ofCode? (negative : Bool) (code : Nat) : Option Binary64 :=
  if code < 9218868437227405312 then
    some (ofFields negative (code / 4503599627370496) code)
  else none

/-- The power of two that counts the significands of doubles around a positive `q`. -/
def spacing (q : Rat) : Int := max (binaryOrder q - 52) (-1074)

/-- The double nearest to a magnitude `q ≥ 0`, with the given sign; `none` if it overflows. -/
def nearest? (negative : Bool) (q : Rat) : Option Binary64 :=
  if q = 0 then ofCode? negative 0
  else
    let scale := spacing q
    let significand := (roundHalfEven (q / (2 : Rat) ^ scale)).toNat
    ofCode? negative ((scale + 1074).toNat * 4503599627370496 + significand)

/-- The double nearest to a rational number; zero gets the positive sign. -/
def ofRat? (q : Rat) : Option Binary64 :=
  if q < 0 then nearest? true (-q) else nearest? false q

/-- What a rational number is rounded to: the nearest double, or the infinity of its sign where the
largest double is passed. -/
def ofRat (q : Rat) : Binary64 := (ofRat? q).getD (infinity (decide (q < 0)))

end Binary64

end PolicyLookup
