/-
  PolicyLookup.Number.Shortest — the shortest decimal that reads back as a double.

  For 1, 2, … 17 digits the two neighbours of the value on that decimal grid are tried, and
  the first grid with a neighbour that reads back wins; of two, the nearer, and the even one
  on a tie.  What is returned has been read back, except the exact expansion that stands
  behind the search, which denotes the value itself.
-/

import PolicyLookup.Number.Nearest

namespace PolicyLookup

/-- A decimal magnitude: `coefficient · 10 ^ exponent`. -/
structure Decimal where
  coefficient : Nat
  exponent : Int
deriving DecidableEq, Inhabited

namespace Decimal

/-- The rational number that a decimal denotes. -/
def value (d : Decimal) : Rat := (d.coefficient : Rat) * (10 : Rat) ^ d.exponent

/-- Moves the zeros at the end of a positive coefficient into the exponent. -/
def trimPositive (coefficient : Nat) (exponent : Int) : Decimal :=
  if coefficient ≠ 0 ∧ coefficient % 10 = 0 then trimPositive (coefficient / 10) (exponent + 1)
  else ⟨coefficient, exponent⟩
termination_by coefficient
decreasing_by omega

/-- The same number without zeros at the end of its coefficient. -/
def trim (d : Decimal) : Decimal :=
  if d.coefficient = 0 then ⟨0, 0⟩ else trimPositive d.coefficient d.exponent

end Decimal

namespace Number

/-- For a positive `q`, the `k` with `10 ^ k ≤ q < 10 ^ (k + 1)`; the estimate from the binary
order is off by one at most. -/
def decimalOrder (q : Rat) : Int :=
  let k := binaryOrder q * 30103 / 100000
  if q < (10 : Rat) ^ k then k - 1
  else if (10 : Rat) ^ (k + 1) ≤ q then k + 1
  else k

end Number

namespace Binary64

open Number

/-- Whether a decimal, with the sign of `x`, is read as `x`. -/
def readsBack (x : Binary64) (d : Decimal) : Bool :=
  decide (nearest? x.negative d.value = some x)

/-- The neighbour of `x` on the grid of multiples of `10 ^ step` that reads back as `x`: the
nearer one if both do, and of two equally near ones the even one. -/
def neighbour? (x : Binary64) (step : Int) : Option Decimal :=
  let below := (x.magnitude / (10 : Rat) ^ step).floor.toNat
  let low : Decimal := ⟨below, step⟩
  let high : Decimal := ⟨below + 1, step⟩
  if x.readsBack low then
    if x.readsBack high then
      let toLow := x.magnitude - low.value
      let toHigh := high.value - x.magnitude
      if toLow < toHigh then some low
      else if toHigh < toLow then some high
      else if below % 2 = 0 then some low else some high
    else some low
  else if x.readsBack high then some high
  else none

/-- The value of a finite double, digit for digit. -/
def exactDecimal (x : Binary64) : Decimal :=
  if 0 ≤ x.scale then ⟨x.significand * Nat.pow 2 x.scale.toNat, 0⟩
  else ⟨x.significand * Nat.pow 5 (-x.scale).toNat, x.scale⟩

/-- The decimal with the fewest digits that is read as the finite double `x`, up to sign. -/
def shortest (x : Binary64) : Decimal :=
  if x.isZero then ⟨0, 0⟩
  else
    let order := decimalOrder x.magnitude
    let found := (List.range 17).findSome? fun (n : Nat) => x.neighbour? (order - n)
    (found.getD x.exactDecimal).trim

/-- The number that the shortest text of a finite double denotes, with its sign. -/
def shortestValue (x : Binary64) : Rat :=
  if x.negative then -x.shortest.value else x.shortest.value

end Binary64

end PolicyLookup
