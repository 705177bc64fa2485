/-
  PolicyLookup.Bson.Equality — when two stored values are equal.

  Values of different types differ, also integers of different widths.  Doubles are compared as
  numbers, so a NaN equals nothing, not even itself.  Documents are equal if they have the same
  names with equal values, in whatever order.
-/

import PolicyLookup.Bson.Basic

namespace PolicyLookup

namespace Bson

mutual

/-- Equality of stored values. -/
def same : Bson → Bson → Bool
  | .null, .null => true
  | .bool a, .bool b => decide (a = b)
  | .str s, .str t => decide (s = t)
  | .int32 m, .int32 n => decide (m = n)
  | .int64 m, .int64 n => decide (m = n)
  | .double x, .double y => x.same y
  | .arr xs, .arr ys => sameItems xs ys
  | .doc xs, .doc ys => xs.length == ys.length && sameFields xs ys
  | .objectId a, .objectId b => decide (a = b)
  | .date a, .date b => decide (a = b)
  | .binary a, .binary b => decide (a = b)
  | .decimal128 a, .decimal128 b => decide (a = b)
  | .regex p o, .regex q u => decide (p = q) && decide (o = u)
  | .code s, .code t => decide (s = t)
  | .scopedCode s xs, .scopedCode t ys =>
    decide (s = t) && (xs.length == ys.length && sameFields xs ys)
  | .timestamp a i, .timestamp b j => decide (a = b) && decide (i = j)
  | .symbol s, .symbol t => decide (s = t)
  | .dbPointer c i, .dbPointer d j => decide (c = d) && decide (i = j)
  | .minKey, .minKey => true
  | .maxKey, .maxKey => true
  | .undefined, .undefined => true
  | _, _ => false

/-- Equality element by element. -/
def sameItems : List Bson → List Bson → Bool
  | [], [] => true
  | x :: xs, y :: ys => same x y && sameItems xs ys
  | _, _ => false

/-- Every field of the first list is in the second with an equal value. -/
def sameFields : List (String × Bson) → Document → Bool
  | [], _ => true
  | (k, v) :: rest, ys =>
    (match ys.get? k with
      | some w => same v w
      | none => false) && sameFields rest ys

end

end Bson

end PolicyLookup
