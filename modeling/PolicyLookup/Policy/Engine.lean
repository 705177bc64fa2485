/-
  PolicyLookup.Policy.Engine — what a policy engine holds between evaluations.

  These are the modules, the data and the input document, and the names of the functions that
  it may call.  Data documents are merged member by member in term order; a member that is
  there with another value stops the merge, and the members before it stay.
-/

import PolicyLookup.Policy.Basic
import PolicyLookup.Term.Json

namespace PolicyLookup.Policy

/-- An engine between two evaluations. -/
structure Engine where
  /-- Modules in the order in which they were added. -/
  modules : List Module
  /-- The pairs of the data object. -/
  data : List (Term × Term)
  input : Term
  /-- Functions outside the engine, each with its number of arguments. -/
  extensions : List (String × Nat)

namespace Engine

/-- Nothing has been added. -/
def empty : Engine := ⟨[], [], .undefined, []⟩

instance : Inhabited Engine := ⟨empty⟩

/-- Adds a module. -/
def addModule (e : Engine) (m : Module) : Engine := { e with modules := e.modules ++ [m] }

/-- Replaces the input. -/
def setInput (e : Engine) (input : Term) : Engine := { e with input := input }

/-- The number of arguments of a function outside the engine. -/
def extension? (e : Engine) (name : String) : Option Nat :=
  (e.extensions.find? fun x => x.1 == name).map Prod.snd

/-- Adds a function outside the engine, unless the name is taken. -/
def addExtension (e : Engine) (name : String) (arity : Nat) : Option Engine :=
  match e.extension? name with
  | some _ => none
  | none => some { e with extensions := e.extensions ++ [(name, arity)] }

/-! ## §1. Data documents. -/

/-- Merges pairs into an object up to the first conflict; says whether there was none. -/
def mergePairs : List (Term × Term) → List (Term × Term) → Bool × List (Term × Term)
  | [], object => (true, object)
  | (k, v) :: rest, object =>
    match Term.lookup k object with
    | none => mergePairs rest (Term.insertPair k v object)
    | some old => if Term.same old v then mergePairs rest object else (false, object)

/-- Merges a document into the data; says whether that worked to the end. -/
def addData (e : Engine) (document : Term) : Bool × Engine :=
  match document with
  | .obj pairs =>
    let (complete, data) := mergePairs pairs e.data
    (complete, { e with data := data })
  | _ => (false, e)

/-! ## §2. Rules. -/

/-- All rules in the order of their definition, one entry for each body. -/
def ruleIds (e : Engine) : List RuleId := e.modules.flatMap Module.ruleIds

/-- The bodies of a rule, in the order of their definition. -/
def bodies (e : Engine) (id : RuleId) : List Body :=
  e.modules.flatMap fun m =>
    if m.package = id.package then
      m.rules.filterMap fun r => if r.name = id.name then some r.body else none
    else []

/-- Whether a path of the data tree leads to a package or into the direction of one. -/
def leadsToPackage (e : Engine) (path : Package) : Bool :=
  e.modules.any fun m => !m.rules.isEmpty && path.isPrefixOf m.package

/-- The rules of the packages at and under a path. -/
def rulesUnder (e : Engine) (path : Package) : List RuleId :=
  e.ruleIds.filter fun id => path.isPrefixOf id.package

/-- The rule that a path of the data tree names: its last part is the rule's name. -/
def ruleAt? (e : Engine) (path : Package) : Option RuleId :=
  match path.reverse with
  | [] => none
  | name :: package =>
    let id : RuleId := ⟨package.reverse, name⟩
    if id ∈ e.ruleIds then some id else none

end Engine

end PolicyLookup.Policy
