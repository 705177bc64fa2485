/-
  PolicyLookup.Signature — what an external function declares about itself.

  A name is a row of identifiers joined by single dots.  `Signature.validate` looks at the name
  first and then at the number of arguments.
-/

import PolicyLookup.Error
import PolicyLookup.Number.Digits
import PolicyLookup.Value.Shape

namespace PolicyLookup

/-- Whether a function answers equal arguments alike across evaluations. -/
inductive Determinism where
  | deterministic
  | nondeterministic
deriving DecidableEq, Inhabited

/-- The name of a determinism. -/
def Determinism.name : Determinism → String
  | .deterministic => "Deterministic"
  | .nondeterministic => "Nondeterministic"

/-- The declaration of an external function. -/
structure Signature where
  name : String
  args : List Shape
  result : Shape
  determinism : Determinism
  /-- Whether a result is reused for equal arguments within one evaluation. -/
  memoize : Bool
deriving DecidableEq, Inhabited

namespace Signature

/-- The number of arguments. -/
def arity (f : Signature) : Nat := f.args.length

/-- The text `name(shape, …) -> shape`. -/
def text (f : Signature) : String :=
  f.name ++ "(" ++ ", ".intercalate (f.args.map Shape.name) ++ ") -> " ++ f.result.name

/-! ## §1. Names. -/

/-- A character that may begin an identifier. -/
def isNameStart (c : Char) : Bool :=
  ('a' ≤ c && c ≤ 'z') || ('A' ≤ c && c ≤ 'Z') || c == '_'

/-- A character that may follow in an identifier. -/
def isNameRest (c : Char) : Bool := isNameStart c || ('0' ≤ c && c ≤ '9')

mutual

/-- An identifier begins here, and dotted identifiers follow to the end. -/
def isNameFromStart : List Char → Bool
  | [] => false
  | c :: rest => isNameStart c && isNameFromInside rest

/-- Within an identifier; dotted identifiers follow to the end. -/
def isNameFromInside : List Char → Bool
  | [] => true
  | c :: rest => if c = '.' then isNameFromStart rest else isNameRest c && isNameFromInside rest

end

/-- Identifiers joined by single dots, and nothing else. -/
def isName (name : String) : Bool := isNameFromStart name.toList

/-- The most arguments a function may take. -/
def maxArity : Nat := 255

/-- Whether a function may be installed under its declaration. -/
def validate (f : Signature) : Except Error Unit :=
  if !isName f.name then
    .error (.registration "name must be a dotted sequence of identifiers" f.name)
  else if maxArity < f.arity then
    .error (.registration
      ("too many arguments (" ++ String.ofList (Number.digits f.arity) ++ ")") f.name)
  else .ok ()

end Signature

end PolicyLookup
