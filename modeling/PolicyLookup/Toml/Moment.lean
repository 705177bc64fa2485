/-
  PolicyLookup.Toml.Moment — dates and times of TOML.

  A date, a time, or both; only both together may have an offset.  What is wanted is the text in
  its canonical form: a `T` before the time, a capital `Z`, and no zeros at the end of a fraction
  of a second.
-/

import PolicyLookup.Number.Digits

namespace PolicyLookup.Toml.Moment

/-- A number of so many digits, which is at least `low` and at most `high`, and its text. -/
def number? (length low high : Nat) (cs : List Char) : Option (List Char × List Char) :=
  let ds := cs.take length
  let n := Number.ofDigits ds
  if ds.length = length && ds.all Number.isDigit && decide (low ≤ n) && decide (n ≤ high) then
    some (ds, cs.drop length)
  else none

/-- A character that must come next. -/
def expect? (c : Char) : List Char → Option (List Char)
  | d :: cs => if d = c then some cs else none
  | [] => none

/-- A date. -/
def date? (cs : List Char) : Option (List Char × List Char) := do
  let (year, cs) ← number? 4 0 9999 cs
  let (month, cs) ← number? 2 1 12 (← expect? '-' cs)
  let (day, cs) ← number? 2 1 31 (← expect? '-' cs)
  return (year ++ '-' :: month ++ '-' :: day, cs)

/-- The digits of a fraction that count. -/
def fractionDigits : Nat := 9

/-- A fraction of a second, if there is one. -/
def fraction? : List Char → Option (List Char × List Char)
  | '.' :: cs =>
    let ds := cs.takeWhile Number.isDigit
    let kept := ((ds.take fractionDigits).reverse.dropWhile (· = '0')).reverse
    if ds.isEmpty then none
    else some (if kept.isEmpty then [] else '.' :: kept, cs.drop ds.length)
  | cs => some ([], cs)

/-- A time. -/
def time? (cs : List Char) : Option (List Char × List Char) := do
  let (hour, cs) ← number? 2 0 24 cs
  let (minute, cs) ← number? 2 0 59 (← expect? ':' cs)
  let (second, cs) ← number? 2 0 59 (← expect? ':' cs)
  let (fraction, cs) ← fraction? cs
  return (hour ++ ':' :: minute ++ ':' :: second ++ fraction, cs)

/-- An offset to the end of the text, if there is one; less than an hour has no sign. -/
def offset? : List Char → Option (List Char)
  | [] => some []
  | c :: cs =>
    if c = 'Z' ∨ c = 'z' then if cs.isEmpty then some ['Z'] else none
    else if c = '+' ∨ c = '-' then do
      let (hour, cs) ← number? 2 0 99 cs
      let (minute, cs) ← number? 2 0 99 (← expect? ':' cs)
      let sign := if hour = ['0', '0'] then '+' else c
      if cs.isEmpty then return sign :: hour ++ ':' :: minute else none
    else none

/-- What separates a date from a time. -/
def isSeparator (c : Char) : Bool := c = 'T' || c = 't' || c = ' '

/-- The canonical text of a date, a time, or both. -/
def canonical? (cs : List Char) : Option (List Char) :=
  match date? cs with
  | some (date, []) => some date
  | some (date, c :: cs) =>
    if isSeparator c then do
      let (time, cs) ← time? cs
      let offset ← offset? cs
      return date ++ 'T' :: time ++ offset
    else none
  | none =>
    match time? cs with
    | some (time, []) => some time
    | _ => none

end PolicyLookup.Toml.Moment
