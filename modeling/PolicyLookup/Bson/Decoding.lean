/-
  PolicyLookup.Bson.Decoding — stored values as native values, and the other way round.

  Integers of both widths become integers, identifiers their hexadecimal text, dates their text
  in UTC.  Doubles that are not finite, dates without a text and all other types are refused;
  of several such parts the first in document order is reported with its path.
-/

import PolicyLookup.Bson.Basic
import PolicyLookup.Calendar.Instant
import PolicyLookup.Error
import PolicyLookup.Text.Hex
import PolicyLookup.Value.Encoding

namespace PolicyLookup

namespace Bson

open Located

/-- Why a stored value has no native value. -/
inductive Defect where
  | nonFinite (x : Binary64)
  | dateOutOfRange (ms : Int64)
  | unsupported (type : String)
deriving DecidableEq, Inhabited

/-- The message of a defect. -/
def Defect.message : Defect → String
  | .nonFinite x => "non-finite double " ++ x.specialName
  | .dateOutOfRange ms =>
    "datetime " ++ String.ofList (Number.intDigits ms.toInt)
      ++ "ms is outside the representable range"
  | .unsupported type => "unsupported store type " ++ type

/-- The error of a defect. -/
def Defect.toError (l : Located Defect) : Error := .encoding l.fault.message l.path.display

/-! ## §1. From the store. -/

mutual

/-- The native value of a stored value. -/
def toValue : Bson → Except (Located Defect) Value
  | .null => .ok .null
  | .bool b => .ok (.bool b)
  | .str s => .ok (.str s)
  | .int32 n => .ok (.int (Int64.ofInt n.toInt))
  | .int64 n => .ok (.int n)
  | .double x => if x.isFinite then .ok (.float x) else .error (here (.nonFinite x))
  | .arr items => (toValues 0 items).map .seq
  | .doc fields => (toEntries fields).map fun entries => .map (Keyed.ofList entries)
  | .objectId id => .ok (.str (String.ofList (Text.Hex.fixed 24 id.toNat)))
  | .date ms =>
    if Calendar.isRepresentable ms.toInt then
      .ok (.str (String.ofList (Calendar.instantChars ms.toInt)))
    else .error (here (.dateOutOfRange ms))
  | .binary _ => .error (here (.unsupported "Binary"))
  | .decimal128 _ => .error (here (.unsupported "Decimal128"))
  | .regex _ _ => .error (here (.unsupported "RegularExpression"))
  | .code _ => .error (here (.unsupported "JavaScriptCode"))
  | .scopedCode _ _ => .error (here (.unsupported "JavaScriptCodeWithScope"))
  | .timestamp _ _ => .error (here (.unsupported "Timestamp"))
  | .symbol _ => .error (here (.unsupported "Symbol"))
  | .dbPointer _ _ => .error (here (.unsupported "DbPointer"))
  | .minKey => .error (here (.unsupported "MinKey"))
  | .maxKey => .error (here (.unsupported "MaxKey"))
  | .undefined => .error (here (.unsupported "Undefined"))

/-- The native values of an array's elements, the first of which has the given index. -/
def toValues (i : Nat) : List Bson → Except (Located Defect) (List Value)
  | [] => .ok []
  | b :: rest =>
    match toValue b with
    | .error l => .error (l.under (Path.index i))
    | .ok v => (toValues (i + 1) rest).map (v :: ·)

/-- The entries of a document, in the order of its fields. -/
def toEntries : List (String × Bson) → Except (Located Defect) (List (String × Value))
  | [] => .ok []
  | (k, b) :: rest =>
    match toValue b with
    | .error l => .error (l.under k)
    | .ok v => (toEntries rest).map ((k, v) :: ·)

end

/-- The native value of a stored value. -/
def decode (b : Bson) : Except Error Value := b.toValue.mapError Defect.toError

/-! ## §2. To the store. -/

mutual

/-- The stored form of a native value; fields are written in key order. -/
def ofValue : Value → Bson
  | .null => .null
  | .bool b => .bool b
  | .int n => .int64 n
  | .float x => .double x
  | .str s => .str s
  | .seq items => .arr (ofValues items)
  | .map entries => .doc (ofEntries entries)

/-- The stored forms of a list of values. -/
def ofValues : List Value → List Bson
  | [] => []
  | v :: rest => ofValue v :: ofValues rest

/-- The fields of a mapping. -/
def ofEntries : List (String × Value) → List (String × Bson)
  | [] => []
  | (k, v) :: rest => (k, ofValue v) :: ofEntries rest

end

end Bson

namespace Document

/-- The mapping of a document. -/
def toMapping (d : Document) : Except (Located Bson.Defect) Mapping :=
  (Bson.toEntries d).map Keyed.ofList

/-- The mapping of a document. -/
def decode (d : Document) : Except Error Mapping := d.toMapping.mapError Bson.Defect.toError

/-- The mappings of a list of documents, the first of which has the given index. -/
def toMappings (i : Nat) : List Document → Except (Located Bson.Defect) (List Mapping)
  | [] => .ok []
  | d :: rest =>
    match d.toMapping with
    | .error l => .error (l.under (Path.index i))
    | .ok m => (toMappings (i + 1) rest).map (m :: ·)

/-- The mappings of a list of documents. -/
def decodeAll (ds : List Document) : Except Error (List Mapping) :=
  (toMappings 0 ds).mapError Bson.Defect.toError

/-- The filter of a mapping: one field for each entry. -/
def ofMapping (m : Mapping) : Document := Bson.ofEntries m

end Document

end PolicyLookup
