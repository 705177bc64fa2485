/-
  PolicyLookup.Number.Decimal — doubles and integers from free-standing texts.

  A double may have a sign, digits on either side of the point, and an exponent; the words for
  infinity and for no number are read in any case.  What overflows is an infinity.
-/

import PolicyLookup.Json.Literal
import PolicyLookup.Text.Hex

namespace PolicyLookup

namespace Binary64

/-- A quiet NaN. -/
def nan : Binary64 := ofFields false 2047 2251799813685248

end Binary64

namespace Number

/-- A text in lower case. -/
def lower (cs : List Char) : List Char := cs.map Char.toLower

/-- An optional exponent, at the end of the text. -/
def exponent? : List Char → Option Int
  | [] => some 0
  | c :: cs =>
    if c = 'e' ∨ c = 'E' then
      let (negative, ds) := Json.Literal.readSign true cs
      if !ds.isEmpty && ds.all isDigit then
        some (if negative then -ofDigits ds else ofDigits ds)
      else none
    else none

/-- Digits with a point somewhere, and an optional exponent. -/
def unsignedFloat? (negative : Bool) (cs : List Char) : Option Binary64 := do
  let whole := cs.takeWhile isDigit
  let rest := cs.dropWhile isDigit
  let (fraction, rest) := match rest with
    | '.' :: rest => (rest.takeWhile isDigit, rest.dropWhile isDigit)
    | rest => ([], rest)
  let exponent ← exponent? rest
  if whole.isEmpty && fraction.isEmpty then none
  else
    let digits := ofDigits (whole ++ fraction)
    let l : Json.Literal := ⟨negative, digits, exponent - fraction.length, false⟩
    return l.toFloat?.getD (.infinity negative)

/-- A double. -/
def float? (cs : List Char) : Option Binary64 :=
  let (negative, rest) := Json.Literal.readSign true cs
  let word := String.ofList (lower rest)
  if word == "inf" || word == "infinity" then some (.infinity negative)
  else if word == "nan" then some .nan
  else unsignedFloat? negative rest

/-- An integer of 64 bits with an optional sign. -/
def int64Text? (cs : List Char) : Option Int :=
  let (negative, ds) := Json.Literal.readSign true cs
  let n : Int := if negative then -ofDigits ds else ofDigits ds
  if !ds.isEmpty && ds.all isDigit && decide (-9223372036854775808 ≤ n)
      && decide (n ≤ 9223372036854775807) then some n
  else none

/-- The number that digits of a base denote. -/
def inBase? (base : Nat) (cs : List Char) : Option Nat :=
  if cs.isEmpty then none
  else
    cs.foldl (fun n c => do
      let n ← n
      let d ← Text.Hex.digit? c
      if d < base then return base * n + d else none) (some 0)

end Number

end PolicyLookup
