/-
  PolicyLookup.Evaluation.Script — what a policy engine does during one evaluation.

  Seen from outside, an evaluation is a tree: it either ends with a result, or calls an
  external function and goes on according to the answer.  Between its steps the world outside
  may change, because other threads run too.
-/

import PolicyLookup.Term.Basic

namespace PolicyLookup

/-- The rest of an evaluation, over a world `σ` and with a result in `α`. -/
inductive Script (σ α : Type) where
  | done (result : α)
  /-- Calls a function; the answer is its result, or nothing if the call failed. -/
  | call (function : String) (args : List Term) (next : Option Term → Script σ α)
  /-- Something outside changes the world. -/
  | meanwhile (change : σ → σ) (next : Script σ α)

namespace Script

variable {σ α β : Type}

/-- Goes on after the end of a script. -/
def bind : Script σ α → (α → Script σ β) → Script σ β
  | .done a, f => f a
  | .call function args next, f => .call function args fun r => (next r).bind f
  | .meanwhile change next, f => .meanwhile change (next.bind f)

instance : Monad (Script σ) where
  pure := .done
  bind := bind

end Script

end PolicyLookup
