/-
  PolicyLookup.Proofs.Policy.Quiet — a policy engine changes nothing outside.

  A script is quiet if nothing happens between its calls.  What an engine does for a query is
  quiet: its expressions, bodies and rules touch the world through the calls of functions alone.
  So an engine goes by its modules, data and input, and by the answers that it gets.

    * `Quiet.bind` — quiet scripts one after the other are quiet.
    * `quiet_rule` — the value of a rule is found quietly, through all the rules that it needs.
    * `quiet_evaluate` — the script of a query is quiet.
-/

import PolicyLookup.Policy.Evaluation
import PolicyLookup.Proofs.Host.Outlook

namespace PolicyLookup

namespace Script

variable {σ ν α β : Type}

/-! ## §1. Quiet scripts. -/

/-- Nothing happens outside between the calls. -/
def Quiet : Script σ α → Prop
  | .done _ => True
  | .call _ _ next => ∀ r, (next r).Quiet
  | .meanwhile _ _ => False

theorem Quiet.bind {s : Script σ α} (hs : s.Quiet) {f : α → Script σ β}
    (hf : ∀ a, (f a).Quiet) : (s.bind f).Quiet := by
  induction s with
  | done a => exact hf a
  | call function terms next ih => exact fun r => ih r (hs r)
  | meanwhile change next ih => exact hs.elim

/-- What is quiet goes by what can be seen, whatever that is. -/
theorem Quiet.fits {s : Script σ α} (hs : s.Quiet) (o : Outlook σ ν)
    (signal signal' : SignalId) : s.Fits o signal signal' := by
  induction s with
  | done a => trivial
  | call function terms next ih => exact fun r => ih r (hs r)
  | meanwhile change next ih => exact hs.elim

end Script

namespace Policy

namespace Eval

variable {σ α β : Type}

/-! ## §2. Quiet computations. -/

/-- A computation whose script is quiet, whatever is known. -/
def Quiet (x : Eval σ α) : Prop := ∀ known, (x known).Quiet

theorem quiet_pure (a : α) : Quiet (Pure.pure a : Eval σ α) := fun _ => trivial

theorem quiet_fail (fault : Fault) : Quiet (fail fault : Eval σ α) := fun _ => trivial

theorem quiet_known? (id : RuleId) : Quiet (known? id : Eval σ (Option Term)) := fun _ => trivial

theorem quiet_learn (id : RuleId) (value : Term) : Quiet (learn id value : Eval σ Unit) :=
  fun _ => trivial

theorem quiet_call (function : String) (args : List Term) :
    Quiet (call function args : Eval σ Term) := by
  intro known r
  cases r with
  | none => trivial
  | some t => trivial

theorem Quiet.bind {x : Eval σ α} (hx : Quiet x) {f : α → Eval σ β} (hf : ∀ a, Quiet (f a)) :
    Quiet (x >>= f) := by
  intro known
  refine Script.Quiet.bind (hx known) ?_
  intro outcome
  cases outcome with
  | error fault => trivial
  | ok r => exact hf r.1 r.2

end Eval

namespace Scope

variable {σ : Type} {scope : Scope σ}

/-! ## §3. Expressions. -/

/-- The rules that a scope refers to are found quietly. -/
def Quiet (scope : Scope σ) : Prop := ∀ id, (scope.rule id).Quiet

theorem quiet_plantRules (hscope : scope.Quiet) (path : Package) (ids : List RuleId) (t : Term) :
    (scope.plantRules path ids t).Quiet := by
  induction ids generalizing t with
  | nil => exact Eval.quiet_pure t
  | cons id ids ih => exact (hscope id).bind fun value => ih _

theorem quiet_descend (hscope : scope.Quiet) (path : Package) (t : Term) (keys : List Term) :
    (scope.descend path t keys).Quiet := by
  induction keys generalizing path t with
  | nil =>
    unfold descend
    split
    · exact hscope _
    · split
      · exact quiet_plantRules hscope path _ _
      · exact Eval.quiet_pure t
  | cons key keys ih =>
    unfold descend
    split
    · exact (hscope _).bind fun value => Eval.quiet_pure _
    · split
      · split
        · exact ih _ _
        · exact Eval.quiet_pure _
      · exact Eval.quiet_pure _

theorem quiet_resolve (hscope : scope.Quiet) (head : String) (keys : List Term) :
    (scope.resolve head keys).Quiet := by
  unfold resolve
  split
  · exact Eval.quiet_pure _
  · split
    · exact quiet_descend hscope _ _ _
    · split
      · exact Eval.quiet_pure _
      · simp only
        split
        · exact (hscope _).bind fun value => Eval.quiet_pure _
        · exact Eval.quiet_fail _

theorem quiet_call (scope : Scope σ) (function : String) (args : List Term) :
    (scope.call function args).Quiet := by
  unfold call
  split
  · split
    · exact Eval.quiet_fail _
    · split
      · exact Eval.quiet_call function args
      · exact Eval.quiet_fail _
  · exact Eval.quiet_pure _

mutual

theorem quiet_eval (hscope : scope.Quiet) : ∀ e : Expr, (scope.eval e).Quiet
  | .null => Eval.quiet_pure _
  | .bool _ => Eval.quiet_pure _
  | .str _ => Eval.quiet_pure _
  | .num _ _ => Eval.quiet_pure _
  | .arr items => by
    unfold eval
    refine (quiet_evalItems hscope items).bind ?_
    intro r
    cases r <;> exact Eval.quiet_pure _
  | .set items => by
    unfold eval
    refine (quiet_evalItems hscope items).bind ?_
    intro r
    cases r <;> exact Eval.quiet_pure _
  | .obj pairs => by
    unfold eval
    refine (quiet_evalPairs hscope pairs).bind ?_
    intro r
    cases r <;> exact Eval.quiet_pure _
  | .call function args => by
    unfold eval
    exact (quiet_evalArgs hscope args).bind fun ts => quiet_call scope function ts
  | .ref head keys => by
    unfold eval
    refine (quiet_evalItems hscope keys).bind ?_
    intro r
    cases r with
    | none => exact Eval.quiet_pure _
    | some ts => exact quiet_resolve hscope head ts
  | .eq left right => by
    unfold eval
    exact (quiet_eval hscope left).bind fun a =>
      (quiet_eval hscope right).bind fun b => Eval.quiet_pure _

theorem quiet_evalItems (hscope : scope.Quiet) : ∀ items : List Expr,
    (scope.evalItems items).Quiet
  | [] => Eval.quiet_pure _
  | e :: rest => by
    unfold evalItems
    refine (quiet_eval hscope e).bind ?_
    intro t
    split
    · exact (quiet_evalItems hscope rest).bind fun r => Eval.quiet_pure _
    · exact Eval.quiet_pure _

theorem quiet_evalPairs (hscope : scope.Quiet) : ∀ pairs : List (Expr × Expr),
    (scope.evalPairs pairs).Quiet
  | [] => Eval.quiet_pure _
  | (k, v) :: rest => by
    unfold evalPairs
    refine (quiet_eval hscope k).bind ?_
    intro key
    split
    · refine (quiet_eval hscope v).bind ?_
      intro value
      split
      · exact (quiet_evalPairs hscope rest).bind fun r => Eval.quiet_pure _
      · exact Eval.quiet_pure _
    · exact Eval.quiet_pure _

theorem quiet_evalArgs (hscope : scope.Quiet) : ∀ args : List Expr, (scope.evalArgs args).Quiet
  | [] => Eval.quiet_pure _
  | e :: rest => by
    unfold evalArgs
    exact (quiet_eval hscope e).bind fun t =>
      (quiet_evalArgs hscope rest).bind fun ts => Eval.quiet_pure _

end

/-! ## §4. Bodies and rules. -/

theorem quiet_gather {f : Term → Eval σ (List Term)} (hf : ∀ t, (f t).Quiet) (ts : List Term) :
    (gather f ts).Quiet := by
  induction ts with
  | nil => exact Eval.quiet_pure _
  | cons t ts ih =>
    unfold gather
    exact (hf t).bind fun found => ih.bind fun rest => Eval.quiet_pure _

theorem quiet_solutions (value : Expr) (conditions : List Condition) :
    ∀ scope : Scope σ, scope.Quiet → (solutions value scope conditions).Quiet := by
  induction conditions with
  | nil =>
    intro scope hscope
    unfold solutions
    exact (quiet_eval hscope value).bind fun t => Eval.quiet_pure _
  | cons condition rest ih =>
    intro scope hscope
    cases condition with
    | bind name e =>
      unfold solutions
      refine (quiet_eval hscope e).bind ?_
      intro t
      split
      · exact ih (scope.bind name t) hscope
      · exact Eval.quiet_pure _
    | each name e =>
      unfold solutions
      refine (quiet_eval hscope e).bind ?_
      intro t
      split
      · exact Eval.quiet_fail _
      -- Each element gets a scope of its own, so the hypothesis is about all scopes.
      · exact quiet_gather (fun item => ih (scope.bind name item) hscope) _
    | absent e =>
      unfold solutions
      refine (quiet_eval hscope e).bind ?_
      intro t
      split
      · exact Eval.quiet_pure _
      · exact ih scope hscope
    | holds e =>
      unfold solutions
      refine (quiet_eval hscope e).bind ?_
      intro t
      split
      · exact ih scope hscope
      · exact Eval.quiet_pure _

theorem quiet_bodyValues (hscope : scope.Quiet) (bodies : List Body) :
    (bodyValues scope bodies).Quiet := by
  induction bodies with
  | nil => exact Eval.quiet_pure _
  | cons body rest ih =>
    cases body with
    | otherwise value => exact ih
    | given value conditions =>
      unfold bodyValues
      exact (quiet_solutions value conditions scope hscope).bind fun found =>
        ih.bind fun more => Eval.quiet_pure _

theorem quiet_defaultValue (hscope : scope.Quiet) (bodies : List Body) :
    (defaultValue scope bodies).Quiet := by
  induction bodies with
  | nil => exact Eval.quiet_pure _
  | cons body rest ih =>
    cases body with
    | otherwise value => exact quiet_eval hscope value
    | given value conditions => exact ih

theorem quiet_ruleValue (hscope : scope.Quiet) (id : RuleId) : (ruleValue scope id).Quiet := by
  unfold ruleValue
  refine (quiet_bodyValues hscope _).bind ?_
  intro found
  split
  · exact quiet_defaultValue hscope _
  · split
    · exact Eval.quiet_pure _
    · exact Eval.quiet_fail _

end Scope

namespace Engine

variable {σ : Type}

/-- The rules in progress bound the recursion: each of them needs rules with more in progress. -/
theorem quiet_rule (e : Engine) (active : List RuleId) (id : RuleId) :
    (e.rule active id : Eval σ Term).Quiet := by
  fun_induction e.rule active id with
  | case1 active id ih =>
    -- The rule is looked up, refused if it is in progress, and else found with it in progress.
    refine (Eval.quiet_known? id).bind ?_
    intro known
    split
    · exact Eval.quiet_pure _
    · split
      · exact Eval.quiet_fail _
      · next hactive =>
        split
        · next hid =>
          refine (Scope.quiet_ruleValue (fun other => ih hactive hid other) id).bind ?_
          exact fun t => (Eval.quiet_learn id t).bind fun _ => Eval.quiet_pure t
        · exact Eval.quiet_pure _

/-- **The script of a query is quiet.** -/
theorem quiet_evaluate (e : Engine) (query : Expr) :
    (e.evaluate query : Script σ (Except Fault Term)).Quiet := by
  unfold evaluate
  exact Script.Quiet.bind (Scope.quiet_eval (fun id => quiet_rule e [] id) query [])
    fun outcome => trivial

end Engine

end Policy

end PolicyLookup
