/-
  PolicyLookup.Settings.Assignment — settings from documents.

  The members of a document set the settings of their names; other members are ignored, and of
  several members with one name the last counts.  A count is taken from anything that looks
  like one, a text from every single value.
-/

import PolicyLookup.Number.Decimal
import PolicyLookup.Number.Layout
import PolicyLookup.Settings.Basic

namespace PolicyLookup

namespace Settings

open Number

/-! ## §1. Counts. -/

/-- The largest count. -/
def largest : Nat := 18446744073709551615

/-- The whole number nearest to a double, within the counts; no number at all is zero. -/
def countOfFloat (x : Binary64) : Nat :=
  if x.isFinite then min (roundHalfAway x.toRat).toNat largest
  else if x.isNaN || x.negative then 0 else largest

/-- The digits of a count, after a plus or not. -/
def countOfDigits? (cs : List Char) : Option Nat :=
  let ds := match cs with
    | '+' :: ds => ds
    | ds => ds
  if !ds.isEmpty && ds.all isDigit && decide (ofDigits ds ≤ largest) then some (ofDigits ds)
  else none

/-- A count in words or digits. -/
def countOfText? (s : String) : Option Nat :=
  let word := String.ofList (lower s.toList)
  if ["true", "on", "yes"].contains word then some 1
  else if ["false", "off", "no"].contains word then some 0
  else countOfDigits? s.toList

/-- Whether an integer has 64 bits with a sign; others count as doubles. -/
def isSmall (n : Int) : Bool :=
  decide (-9223372036854775808 ≤ n) && decide (n ≤ 9223372036854775807)

/-- The count that a document denotes. -/
def count? : Json → Option Nat
  | .int n =>
    if isSmall n then if n < 0 then none else some n.toNat
    else some (countOfFloat (Binary64.ofRat n))
  | .float x => some (countOfFloat x)
  | .bool b => some b.toNat
  | .str s => countOfText? s
  | _ => none

/-! ## §2. Texts. -/

/-- Doubles in settings have no exponent, and integral ones no point. -/
def floatLayout : FloatLayout where
  isPositional := fun _ => true
  keepsPoint := false

/-- The text of a double. -/
def textOfFloat (x : Binary64) : String :=
  if x.isFinite then String.ofList (floatLayout.chars x) else x.specialName

/-- The text that a document denotes. -/
def text? : Json → Option String
  | .str s => some s
  | .bool b => some (if b then "true" else "false")
  | .int n =>
    some (if isSmall n then String.ofList (intDigits n) else textOfFloat (Binary64.ofRat n))
  | .float x => some (textOfFloat x)
  | _ => none

/-- The text that a document denotes, null being no text. -/
def optionalText? : Json → Option (Option String)
  | .null => some none
  | j => (text? j).map some

/-! ## §3. Documents. -/

/-- Sets a setting, if the document denotes a value for it. -/
def set? (s : Settings) (f : Field) (j : Json) : Option Settings :=
  match f with
  | .address => (optionalText? j).map fun t => { s with address := t }
  | .database => (optionalText? j).map fun t => { s with database := t }
  | .appName => (text? j).map fun t => { s with appName := t }
  | .connectTimeout => (count? j).map fun n => { s with connectTimeout := n }
  | .queryTimeout => (count? j).map fun n => { s with queryTimeout := n }
  | .maxDocuments => (count? j).map fun n => { s with maxDocuments := n }

/-- The last member of a name. -/
def lastMember? (members : List (String × Json)) (key : String) : Option Json :=
  (members.reverse.find? fun m => m.1 == key).map Prod.snd

/-- Sets a setting from the member of its name, if there is one. -/
def setFrom? (members : List (String × Json)) (s : Settings) (f : Field) : Option Settings :=
  match lastMember? members f.key with
  | none => some s
  | some j => s.set? f j

/-- The settings that members describe; those without a member are at their default. -/
def ofMembers? (members : List (String × Json)) : Option Settings :=
  Field.all.foldlM (setFrom? members) standard

end Settings

end PolicyLookup
