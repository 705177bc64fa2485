/-
  PolicyLookup.Term.Decoding — terms as native values, and native values as terms.

  Sets and arrays become sequences in their order, objects mappings.  What has no native value
  is `undefined`, an object with a key that is no string, an integer above the signed range that
  still fits 64 unsigned bits, and a number beyond the doubles; of several such parts the first
  in reading order is reported, the key of a pair before its value.
-/

import PolicyLookup.Error
import PolicyLookup.Term.Json
import PolicyLookup.Value.Encoding
import PolicyLookup.Value.Shape

namespace PolicyLookup

namespace Term

/-! ## §1. Decoding. -/

/-- Why a part of a term has no native value. -/
inductive Defect where
  | undefinedValue
  | keyNotString (kind : String)
  | outOfRange (n : Int)
  /-- A number is beyond the largest double, and its document would be `null`. -/
  | beyondDoubles
deriving DecidableEq, Inhabited

/-- The message of a defect. -/
def Defect.message : Defect → String
  | .undefinedValue => "cannot use undefined value"
  | .keyNotString kind => s!"object keys must be strings, got {kind} key"
  | .outOfRange n =>
    "integer " ++ String.ofList (Number.intDigits n) ++ " is out of the 64-bit signed range"
  | .beyondDoubles => "number is not representable, serialized as null"

/-- The native value of a number. -/
def numberToValue (q : Rat) : Except Defect Value :=
  if isWord q then
    match int64? q.num with
    | some n => .ok (.int n)
    | none => .error (.outOfRange q.num)
  else
    match Binary64.ofRat? q with
    | some x => .ok (.float x)
    | none => .error .beyondDoubles

mutual

/-- The native value of a term. -/
def toValue : Term → Except Defect Value
  | .null => .ok .null
  | .bool b => .ok (.bool b)
  | .num q => numberToValue q
  | .str s => .ok (.str s)
  | .arr items => (toValues items).map .seq
  | .set items => (toValues items).map .seq
  | .obj pairs => (toEntries pairs).map fun entries => .map (Keyed.ofList entries)
  | .undefined => .error .undefinedValue

/-- The native values of a list of terms, up to the first defect. -/
def toValues : List Term → Except Defect (List Value)
  | [] => .ok []
  | t :: rest =>
    match toValue t with
    | .error d => .error d
    | .ok v => (toValues rest).map (v :: ·)

/-- The entries of an object, up to the first defect. -/
def toEntries : List (Term × Term) → Except Defect (List (String × Value))
  | [] => .ok []
  | (k, t) :: rest =>
    match k with
    | .str key =>
      match toValue t with
      | .error d => .error d
      | .ok v => (toEntries rest).map ((key, v) :: ·)
    | k => .error (.keyNotString k.kind)

end

/-- The native value of a term, its defect being a type error without a position. -/
def decode (t : Term) : Except Error Value :=
  t.toValue.mapError fun d => .type d.message none

/-- The native value of an argument, which must have the declared shape. -/
def decodeArgument (t : Term) (shape : Shape) (position : Nat) : Except Error Value :=
  match t.toValue with
  | .error d => .error (.argument position d.message)
  | .ok v =>
    if shape.accepts v then .ok v
    else .error (.argument position s!"expected {shape.name}, got {t.kind}")

end Term

/-! ## §2. Encoding. -/

/-- The error of a double that is not finite. -/
def Error.nonFinite (l : Located Binary64) : Error :=
  .encoding ("non-finite number " ++ l.fault.specialName) l.path.display

namespace Value

/-- The JSON document of a value. -/
def encodeJson (v : Value) : Except Error Json := v.toJson.mapError Error.nonFinite

/-- The term of a value. -/
def toTerm (v : Value) : Except Error Term := v.encodeJson.map Term.ofJson

end Value

end PolicyLookup
