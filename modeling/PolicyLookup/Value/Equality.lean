/-
  PolicyLookup.Value.Equality — when two native values are equal.

  Values of different kinds differ, also an integer and a double of the same size.  Doubles are
  compared as numbers, so a NaN equals nothing, not even itself.  Mappings are equal if they have the
  same keys with equal values.
-/

import PolicyLookup.Value.Basic

namespace PolicyLookup

namespace Value

mutual

/-- Equality of native values. -/
def same : Value → Value → Bool
  | .null, .null => true
  | .bool a, .bool b => decide (a = b)
  | .int m, .int n => decide (m = n)
  | .float x, .float y => x.same y
  | .str s, .str t => decide (s = t)
  | .seq xs, .seq ys => sameItems xs ys
  | .map xs, .map ys => sameEntries xs ys
  | _, _ => false

/-- Equality item by item. -/
def sameItems : List Value → List Value → Bool
  | [], [] => true
  | x :: xs, y :: ys => same x y && sameItems xs ys
  | _, _ => false

/-- Equality entry by entry, in the order of the keys. -/
def sameEntries : List (String × Value) → List (String × Value) → Bool
  | [], [] => true
  | (k, v) :: xs, (l, w) :: ys => decide (k = l) && same v w && sameEntries xs ys
  | _, _ => false

end

end Value

end PolicyLookup
