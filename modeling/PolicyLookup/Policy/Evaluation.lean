/-
  PolicyLookup.Policy.Evaluation — evaluating expressions and rules.

  Undefined is a value here: it spreads from the parts of an expression to the whole and ends a
  body.  A rule is evaluated when it is first needed, and its value is kept until the evaluation
  ends.  Rules must not need themselves; the rules in progress are therefore all different, and
  that bounds the recursion.
-/

import PolicyLookup.Evaluation.Script
import PolicyLookup.Policy.Engine

namespace PolicyLookup.Policy

/-- Why an evaluation is given up. -/
inductive Fault where
  | unknownFunction (name : String)
  | wrongArity (name : String)
  /-- A function outside the engine failed. -/
  | callFailed (name : String)
  | unknownName (name : String)
  /-- Bodies of a rule disagree. -/
  | conflict (id : RuleId)
  /-- A rule needs its own value. -/
  | recursion (id : RuleId)
  | notIterable (kind : String)
deriving DecidableEq, Inhabited

/-- The rules that have been evaluated, with their values. -/
abbrev Known := List (RuleId × Term)

/-- A computation within an evaluation, over a world `σ`. -/
def Eval (σ α : Type) : Type := Known → Script σ (Except Fault (α × Known))

namespace Eval

variable {σ α β : Type}

/-- A result. -/
def pure (a : α) : Eval σ α := fun known => .done (.ok (a, known))

/-- Goes on with a result, if there is one. -/
def bind (x : Eval σ α) (f : α → Eval σ β) : Eval σ β := fun known =>
  (x known).bind fun
    | .error fault => .done (.error fault)
    | .ok (a, known) => f a known

instance : Monad (Eval σ) where
  pure := pure
  bind := bind

/-- Gives up. -/
def fail (fault : Fault) : Eval σ α := fun _ => .done (.error fault)

/-- Calls a function outside the engine. -/
def call (function : String) (args : List Term) : Eval σ Term := fun known =>
  .call function args fun
    | none => .done (.error (.callFailed function))
    | some t => .done (.ok (t, known))

/-- The value of a rule, if it has been evaluated. -/
def known? (id : RuleId) : Eval σ (Option Term) := fun known =>
  .done (.ok ((known.find? fun k => decide (k.1 = id)).map Prod.snd, known))

/-- Keeps the value of a rule. -/
def learn (id : RuleId) (value : Term) : Eval σ Unit := fun known =>
  .done (.ok ((), (id, value) :: known))

end Eval

/-- What the parts of a body can refer to. -/
structure Scope (σ : Type) where
  engine : Engine
  package : Package
  /-- Local names, the latest first. -/
  locals : List (String × Term)
  /-- How the value of a rule is found. -/
  rule : RuleId → Eval σ Term

namespace Scope

variable {σ : Type}

/-- A scope with one more local name. -/
def bind (scope : Scope σ) (name : String) (value : Term) : Scope σ :=
  { scope with locals := (name, value) :: scope.locals }

/-! ## §1. References. -/

/-- The part of a term that a row of keys leads to. -/
def follow (t : Term) (keys : List Term) : Term := keys.foldl Term.part t

/-- Puts a value into a tree of objects, at the end of a path. -/
def plant (value : Term) : Package → Term → Term
  | [], _ => value
  | key :: path, t =>
    let pairs := match t with
      | .obj pairs => pairs
      | _ => []
    let inner := (Term.lookup (.str key) pairs).getD (.obj [])
    .obj (Term.insertPair (.str key) (plant value path inner) pairs)

/-- The document at a path of the data tree, to which packages and rules are added. -/
def plantRules (scope : Scope σ) (path : Package) : List RuleId → Term → Eval σ Term
  | [], t => pure t
  | id :: rest, t => do
    let value ← scope.rule id
    let place := id.package.drop path.length
    let branch := match follow t (place.map Term.str) with
      | .obj _ => t
      | _ => plant (.obj []) place t
    plantRules scope path rest
      (if value.isDefined then plant value (place ++ [id.name]) branch else branch)

/-- Goes down the data tree: `path` has been gone so far and `t` is the document there.  A rule
ends the way down, and what is left of the keys is looked up in its value; only the rules on the
way or below its end are evaluated. -/
def descend (scope : Scope σ) (path : Package) (t : Term) : List Term → Eval σ Term
  | [] =>
    match scope.engine.ruleAt? path with
    | some id => scope.rule id
    | none =>
      if scope.engine.leadsToPackage path then
        scope.plantRules path (scope.engine.rulesUnder path).eraseDups
          (if t.isDefined then t else .obj [])
      else pure t
  | key :: keys =>
    match scope.engine.ruleAt? path with
    | some id => do return follow (← scope.rule id) (key :: keys)
    | none =>
      if scope.engine.leadsToPackage path then
        match key with
        | .str s => descend scope (path ++ [s]) (t.part key) keys
        | key => pure (follow t (key :: keys))
      else pure (follow t (key :: keys))

/-- The value of a reference: `data`, `input`, a local name, or a rule of the package. -/
def resolve (scope : Scope σ) (head : String) (keys : List Term) : Eval σ Term :=
  match scope.locals.find? fun l => l.1 == head with
  | some (_, t) => pure (follow t keys)
  | none =>
    if head = "data" then scope.descend [] (.obj scope.engine.data) keys
    else if head = "input" then pure (follow scope.engine.input keys)
    else
      let id : RuleId := ⟨scope.package, head⟩
      if id ∈ scope.engine.ruleIds then do return follow (← scope.rule id) keys
      else Eval.fail (.unknownName head)

/-! ## §2. Expressions. -/

/-- Calls a function outside the engine, with defined arguments. -/
def call (scope : Scope σ) (function : String) (args : List Term) : Eval σ Term :=
  if args.all Term.isDefined then
    match scope.engine.extension? function with
    | none => Eval.fail (.unknownFunction function)
    | some arity =>
      if args.length = arity then Eval.call function args
      else Eval.fail (.wrongArity function)
  else pure .undefined

mutual

/-- The value of an expression. -/
def eval (scope : Scope σ) : Expr → Eval σ Term
  | .null => pure .null
  | .bool b => pure (.bool b)
  | .str s => pure (.str s)
  | .num _ q => pure (.num q)
  | .arr items => do
    match ← evalItems scope items with
    | some ts => return .arr ts
    | none => return .undefined
  | .set items => do
    match ← evalItems scope items with
    | some ts => return Term.setOf ts
    | none => return .undefined
  | .obj pairs => do
    match ← evalPairs scope pairs with
    | some ps => return Term.objectOf ps
    | none => return .undefined
  | .call function args => do scope.call function (← evalArgs scope args)
  | .ref head keys => do
    match ← evalItems scope keys with
    | some ts => scope.resolve head ts
    | none => return .undefined
  | .eq left right => do
    let a ← eval scope left
    let b ← eval scope right
    return if a.isDefined && b.isDefined then .bool (Term.same a b) else .undefined

/-- The values of a list of expressions; stops at the first that is undefined. -/
def evalItems (scope : Scope σ) : List Expr → Eval σ (Option (List Term))
  | [] => pure (some [])
  | e :: rest => do
    let t ← eval scope e
    if t.isDefined then return (← evalItems scope rest).map (t :: ·)
    else return none

/-- The values of a list of pairs, each key before its value; stops at the first that is
undefined. -/
def evalPairs (scope : Scope σ) : List (Expr × Expr) → Eval σ (Option (List (Term × Term)))
  | [] => pure (some [])
  | (k, v) :: rest => do
    let key ← eval scope k
    if key.isDefined then
      let value ← eval scope v
      if value.isDefined then return (← evalPairs scope rest).map ((key, value) :: ·)
      else return none
    else return none

/-- The values of the arguments of a call, also those after one that is undefined. -/
def evalArgs (scope : Scope σ) : List Expr → Eval σ (List Term)
  | [] => pure []
  | e :: rest => do
    let t ← eval scope e
    return t :: (← evalArgs scope rest)

end

/-! ## §3. Bodies. -/

/-- What the elements of a collection yield, all of them in turn. -/
def gather (f : Term → Eval σ (List Term)) : List Term → Eval σ (List Term)
  | [] => pure []
  | t :: rest => do
    let found ← f t
    return found ++ (← gather f rest)

/-- The elements of a collection; undefined has none. -/
def elements : Term → Except Fault (List Term)
  | .arr items => .ok items
  | .set items => .ok items
  | .obj pairs => .ok (pairs.map Prod.snd)
  | .undefined => .ok []
  | t => .error (.notIterable t.kind)

/-- The values that a body gives, one for each way of meeting its conditions. -/
def solutions (value : Expr) (scope : Scope σ) : List Condition → Eval σ (List Term)
  | [] => do
    let t ← eval scope value
    return if t.isDefined then [t] else []
  | .bind name e :: rest => do
    let t ← eval scope e
    if t.isDefined then solutions value (scope.bind name t) rest else return []
  | .each name e :: rest => do
    let t ← eval scope e
    match elements t with
    | .error fault => Eval.fail fault
    | .ok items => gather (fun item => solutions value (scope.bind name item) rest) items
  | .absent e :: rest => do
    let t ← eval scope e
    if t.holds then return [] else solutions value scope rest
  | .holds e :: rest => do
    let t ← eval scope e
    if t.holds then solutions value scope rest else return []

/-- The values that the bodies of a rule give, defaults apart. -/
def bodyValues (scope : Scope σ) : List Body → Eval σ (List Term)
  | [] => pure []
  | .otherwise _ :: rest => bodyValues scope rest
  | .given value conditions :: rest => do
    let found ← solutions value scope conditions
    return found ++ (← bodyValues scope rest)

/-- The default of a rule. -/
def defaultValue (scope : Scope σ) : List Body → Eval σ Term
  | [] => pure .undefined
  | .otherwise value :: _ => eval scope value
  | .given _ _ :: rest => defaultValue scope rest

/-- The value of a rule from its bodies: they must agree, and the default stands in if none of
them gives a value. -/
def ruleValue (scope : Scope σ) (id : RuleId) : Eval σ Term := do
  let bodies := scope.engine.bodies id
  match ← bodyValues scope bodies with
  | [] => defaultValue scope bodies
  | t :: rest => if rest.all (Term.same t) then return t else Eval.fail (.conflict id)

end Scope

/-! ## §4. Rules. -/

/-- The entries of `all` that are not in `active` become fewer when one of them is added. -/
theorem remaining_lt {all active : List RuleId} {id : RuleId} (hall : id ∈ all)
    (hactive : id ∉ active) :
    (all.filter fun x => decide (x ∉ id :: active)).length
      < (all.filter fun x => decide (x ∉ active)).length := by
  induction all with
  | nil => simp at hall
  | cons x rest ih =>
    have hle : (rest.filter fun x => decide (x ∉ id :: active)).length
        ≤ (rest.filter fun x => decide (x ∉ active)).length := by
      clear ih hall
      induction rest with
      | nil => simp
      | cons y rest ih =>
        by_cases hy : y = id <;> by_cases hya : y ∈ active <;> simp_all
        omega
    by_cases hx : x = id
    · subst hx
      simp only [List.filter_cons, List.mem_cons, true_or, not_true_eq_false, decide_false,
        Bool.false_eq_true, if_false, hactive, not_false_eq_true, decide_true, if_true,
        List.length_cons]
      simp only [List.mem_cons] at hle
      omega
    · have hrest : id ∈ rest := by
        rcases List.mem_cons.1 hall with h | h
        · exact absurd h.symm hx
        · exact h
      have := ih hrest
      by_cases hxa : x ∈ active <;> simp_all

namespace Engine

variable {σ : Type}

/-- The value of a rule; `active` are the rules in progress. -/
def rule (e : Engine) (active : List RuleId) (id : RuleId) : Eval σ Term := do
  match ← Eval.known? id with
  | some t => return t
  | none =>
    if _h : id ∈ active then Eval.fail (.recursion id)
    else if _h : id ∈ e.ruleIds then
      let t ← Scope.ruleValue ⟨e, id.package, [], fun other => e.rule (id :: active) other⟩ id
      Eval.learn id t
      return t
    else return .undefined
termination_by (e.ruleIds.filter fun x => decide (x ∉ active)).length
decreasing_by exact remaining_lt ‹_› ‹_›

/-- Evaluates a query: an expression outside all packages. -/
def evaluate (e : Engine) (query : Expr) : Script σ (Except Fault Term) :=
  (Scope.eval ⟨e, [], [], e.rule []⟩ query []).bind fun outcome =>
    .done (outcome.map Prod.fst)

end Engine

end PolicyLookup.Policy
