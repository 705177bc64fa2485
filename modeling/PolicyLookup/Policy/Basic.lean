/-
  PolicyLookup.Policy.Basic — policies as trees.

  A module belongs to a package and holds rules.  A rule is known by its package and its name;
  it may have several bodies, also in several modules, and a default.
-/

import PolicyLookup.Term.Basic

namespace PolicyLookup.Policy

/-- An expression. -/
inductive Expr where
  | null
  | bool (b : Bool)
  | str (s : String)
  /-- A number, and how it is written. -/
  | num (text : String) (value : Rat)
  | arr (items : List Expr)
  | set (items : List Expr)
  | obj (pairs : List (Expr × Expr))
  | call (function : String) (args : List Expr)
  /-- A name, and the keys that lead from its value to a part of it. -/
  | ref (head : String) (keys : List Expr)
  | eq (left right : Expr)
deriving Inhabited

/-- A condition in the body of a rule. -/
inductive Condition where
  /-- Gives a value a name; the value must be defined. -/
  | bind (name : String) (value : Expr)
  /-- Tries the elements of a collection one after the other. -/
  | each (name : String) (collection : Expr)
  /-- The expression must not hold. -/
  | absent (e : Expr)
  /-- The expression must hold. -/
  | holds (e : Expr)
deriving Inhabited

/-- What a rule says. -/
inductive Body where
  /-- The value if no other body gives one. -/
  | otherwise (value : Expr)
  /-- The value if all conditions are met. -/
  | given (value : Expr) (conditions : List Condition)
deriving Inhabited

/-- A rule of a module. -/
structure Rule where
  name : String
  body : Body
deriving Inhabited

/-- The parts of a package's name. -/
abbrev Package := List String

/-- A module: rules of one package. -/
structure Module where
  package : Package
  rules : List Rule
deriving Inhabited

/-- What identifies a rule. -/
structure RuleId where
  package : Package
  name : String
deriving DecidableEq, Inhabited

/-- The rules of a module, in their order. -/
def Module.ruleIds (m : Module) : List RuleId := m.rules.map fun r => ⟨m.package, r.name⟩

end PolicyLookup.Policy
