/-
  PolicyLookup.Value.Shape — the declared shapes of arguments and results.
-/

import PolicyLookup.Value.Basic

namespace PolicyLookup

/-- What an external function declares about an argument or its result. -/
inductive Shape where
  | any
  | string
  | object
  | array (items : Shape)
deriving DecidableEq, Inhabited

namespace Shape

/-- The name of a shape in signatures and messages. -/
def name : Shape → String
  | .any => "any"
  | .string => "string"
  | .object => "object"
  | .array items => "array<" ++ items.name ++ ">"

/-- Whether a value has the shape: `any` takes all values, and an array is a sequence whose
items all have the shape of its items. -/
def accepts : Shape → Value → Bool
  | .any, _ => true
  | .string, .str _ => true
  | .object, .map _ => true
  | .array items, .seq vs => vs.all items.accepts
  | _, _ => false

end Shape

end PolicyLookup
