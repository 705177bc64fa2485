/-
  PolicyLookup.Term.Json — terms and JSON documents.

  A double of a document becomes the number that its shortest text denotes.  On the way out an
  integral number within 64 bits, signed or unsigned, is an integer and every other number the
  nearest double; sets become arrays, and a key that is no string its compact text.
-/

import PolicyLookup.Json.Writer
import PolicyLookup.Term.Order

namespace PolicyLookup

namespace Term

mutual

/-- The term of a document. -/
def ofJson : Json → Term
  | .null => .null
  | .bool b => .bool b
  | .int n => .num n
  | .float x => .num x.shortestValue
  | .str s => .str s
  | .arr items => .arr (ofJsonItems items)
  | .obj members => objectOf (ofJsonMembers members)

/-- The terms of the elements of an array. -/
def ofJsonItems : List Json → List Term
  | [] => []
  | j :: rest => ofJson j :: ofJsonItems rest

/-- The pairs of the members of an object, in the order of the text. -/
def ofJsonMembers : List (String × Json) → List (Term × Term)
  | [] => []
  | (k, j) :: rest => (.str k, ofJson j) :: ofJsonMembers rest

end

/-- Whether a number is an integer that fits 64 bits, signed or unsigned. -/
def isWord (q : Rat) : Bool :=
  q.den == 1 && decide (-9223372036854775808 ≤ q.num) && decide (q.num < 18446744073709551616)

/-- The JSON number of a number. -/
def numberToJson (q : Rat) : Json :=
  if isWord q then .int q.num else .float (Binary64.ofRat q)

mutual

/-- The document of a term. -/
def toJson : Term → Json
  | .null => .null
  | .bool b => .bool b
  | .num q => numberToJson q
  | .str s => .str s
  | .arr items => .arr (toJsonItems items)
  | .set items => .arr (toJsonItems items)
  | .obj pairs => .obj (toJsonPairs pairs)
  | .undefined => .null

/-- The documents of a list of terms. -/
def toJsonItems : List Term → List Json
  | [] => []
  | t :: rest => toJson t :: toJsonItems rest

/-- The members of an object, in term order of its keys. -/
def toJsonPairs : List (Term × Term) → List (String × Json)
  | [] => []
  | (.str k, t) :: rest => (k, toJson t) :: toJsonPairs rest
  | (k, t) :: rest => ((toJson k).compact, toJson t) :: toJsonPairs rest

end

end Term

end PolicyLookup
