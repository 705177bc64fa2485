/-
  PolicyLookup.Number.Layout — how the digits of a double are laid out as text.

  A layout says for which exponents the point is written in its place, whether an integral
  number keeps a `.0`, and everything else follows: outside that span the first digit is
  followed by the point, the other digits, and a signed exponent.
-/

import PolicyLookup.Number.Digits
import PolicyLookup.Number.Shortest

namespace PolicyLookup

/-- The choices of a format for floating-point numbers. -/
structure FloatLayout where
  /-- Whether a number whose first digit counts `10 ^ e` is written without an exponent. -/
  isPositional : Int → Bool
  /-- Whether an integral number without an exponent ends in `.0`. -/
  keepsPoint : Bool

namespace FloatLayout

open Number

/-- The digits with the point in its place; `exponent` is that of the last digit. -/
def positional (layout : FloatLayout) (ds : List Char) (exponent : Int) : List Char :=
  let point := exponent + ds.length
  if 0 ≤ exponent then
    ds ++ List.replicate exponent.toNat '0' ++ (if layout.keepsPoint then ['.', '0'] else [])
  else if 0 < point then ds.take point.toNat ++ '.' :: ds.drop point.toNat
  else '0' :: '.' :: (List.replicate (-point).toNat '0' ++ ds)

/-- The first digit, the point and the other digits if there are any, and the exponent of
the first digit with its sign. -/
def scientific (ds : List Char) (order : Int) : List Char :=
  let tail := ds.drop 1
  ds.take 1 ++ (if tail.isEmpty then [] else '.' :: tail)
    ++ 'e' :: (if order < 0 then '-' else '+') :: digits order.natAbs

/-- The text of a finite double: its shortest digits in the layout. -/
def chars (layout : FloatLayout) (x : Binary64) : List Char :=
  let d := x.shortest
  let ds := digits d.coefficient
  let order := d.exponent + ds.length - 1
  (if x.negative then ['-'] else [])
    ++ (if layout.isPositional order then layout.positional ds d.exponent
        else scientific ds order)

end FloatLayout

/-- The name of a double that is not finite. -/
def Binary64.specialName (x : Binary64) : String :=
  if x.isNaN then "NaN" else if x.negative then "-inf" else "inf"

end PolicyLookup
