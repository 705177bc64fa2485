/-
  PolicyLookup.Term.Basic — the values that policies compute with.

  A number is its exact value, so that `1`, `1.0` and `1e0` are one number.  Sets and objects
  hold their elements in term order, see `PolicyLookup.Term.Order`.
-/

namespace PolicyLookup

/-- A term of the policy language. -/
inductive Term where
  | null
  | bool (b : Bool)
  | num (q : Rat)
  | str (s : String)
  | arr (items : List Term)
  /-- The elements in ascending term order, each once. -/
  | set (items : List Term)
  /-- The pairs in ascending order of their keys, each key once. -/
  | obj (pairs : List (Term × Term))
  | undefined
deriving Inhabited

namespace Term

/-- The name of a term's kind in messages. -/
def kind : Term → String
  | .null => "null"
  | .bool _ => "boolean"
  | .num _ => "number"
  | .str _ => "string"
  | .arr _ => "array"
  | .set _ => "set"
  | .obj _ => "object"
  | .undefined => "undefined"

/-- Whether a term is a value at all. -/
def isDefined : Term → Bool
  | .undefined => false
  | _ => true

/-- Whether a term makes a condition hold: everything but `false` and `undefined`. -/
def holds : Term → Bool
  | .undefined => false
  | .bool b => b
  | _ => true

end Term

end PolicyLookup
