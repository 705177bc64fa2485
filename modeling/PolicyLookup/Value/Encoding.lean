/-
  PolicyLookup.Value.Encoding — native values as JSON, in three ways.

  `toJson` refuses doubles that are not finite and says where the first one stands; `write`
  writes the text at once and puts `null` in their place; `ofJson` reads a document back, an
  integer that does not fit 64 signed bits becoming the nearest double.
-/

import PolicyLookup.Json.Writer
import PolicyLookup.Number.Nearest
import PolicyLookup.Value.Basic
import PolicyLookup.Value.Located

namespace PolicyLookup

/-- An integer in the signed range of 64 bits. -/
def int64? (n : Int) : Option Int64 :=
  if -9223372036854775808 ≤ n ∧ n ≤ 9223372036854775807 then some (Int64.ofInt n) else none

namespace Value

open Located

/-! ## §1. To a JSON document. -/

mutual

/-- The JSON document of a value; the fault is the first double that is not finite. -/
def toJson : Value → Except (Located Binary64) Json
  | .null => .ok .null
  | .bool b => .ok (.bool b)
  | .int n => .ok (.int n.toInt)
  | .float x => if x.isFinite then .ok (.float x) else .error (here x)
  | .str s => .ok (.str s)
  | .seq items => (itemsToJson 0 items).map .arr
  | .map entries => (entriesToJson entries).map .obj

/-- The elements of a sequence, the first of which has the given index. -/
def itemsToJson (i : Nat) : List Value → Except (Located Binary64) (List Json)
  | [] => .ok []
  | v :: rest =>
    match toJson v with
    | .error l => .error (l.under (Path.index i))
    | .ok j => (itemsToJson (i + 1) rest).map (j :: ·)

/-- The members of a mapping, in key order. -/
def entriesToJson : List (String × Value) → Except (Located Binary64) (List (String × Json))
  | [] => .ok []
  | (k, v) :: rest =>
    match toJson v with
    | .error l => .error (l.under k)
    | .ok j => (entriesToJson rest).map ((k, j) :: ·)

end

/-! ## §2. To text at once. -/

mutual

/-- The characters of a value; doubles that are not finite are written as `null`. -/
def writeChars : Value → List Char
  | .null => ['n', 'u', 'l', 'l']
  | .bool b => Json.boolChars b
  | .int n => Number.intDigits n.toInt
  | .float x => Json.floatChars x
  | .str s => Json.quote s
  | .seq items => '[' :: (writeItems items ++ [']'])
  | .map entries => '\x7b' :: (writeEntries entries ++ ['\x7d'])

/-- The elements of a sequence, separated by commas. -/
def writeItems : List Value → List Char
  | [] => []
  | [v] => writeChars v
  | v :: rest => writeChars v ++ ',' :: writeItems rest

/-- The entries of a mapping, separated by commas. -/
def writeEntries : List (String × Value) → List Char
  | [] => []
  | [(k, v)] => Json.quote k ++ ':' :: writeChars v
  | (k, v) :: rest => Json.quote k ++ ':' :: (writeChars v ++ ',' :: writeEntries rest)

end

/-- The text of a value; doubles that are not finite are written as `null`. -/
def write (v : Value) : String := String.ofList v.writeChars

/-! ## §3. From a JSON document. -/

mutual

/-- The value of a JSON document. -/
def ofJson : Json → Value
  | .null => .null
  | .bool b => .bool b
  | .int n =>
    match int64? n with
    | some n => .int n
    | none => .float (Binary64.ofRat n)
  | .float x => .float x
  | .str s => .str s
  | .arr items => .seq (ofJsonItems items)
  | .obj members => .map (Keyed.ofList (ofJsonMembers members))

/-- The values of the elements of an array. -/
def ofJsonItems : List Json → List Value
  | [] => []
  | j :: rest => ofJson j :: ofJsonItems rest

/-- The values of the members of an object, in the order of the text. -/
def ofJsonMembers : List (String × Json) → List (String × Value)
  | [] => []
  | (k, j) :: rest => (k, ofJson j) :: ofJsonMembers rest

end

end Value

end PolicyLookup
