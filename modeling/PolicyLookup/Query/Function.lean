/-
  PolicyLookup.Query.Function — queries as a function that policies call.

  `mongodb.query` takes the name of a collection and a filter.  It waits for the store, which a
  thread that drives the only worker of its runtime must not do.  What it needs of the world is
  the setting in which a query starts, and a way to put down what has come of it.
-/

import PolicyLookup.Host.Call
import PolicyLookup.Query.Lookup

namespace PolicyLookup

namespace Query

/-- The declaration of the function. -/
def signature : Signature where
  name := "mongodb.query"
  args := [.string, .object]
  result := .array .object
  determinism := .nondeterministic
  memoize := true

/-- The thread must not wait. -/
def cannotBlock : Error :=
  .internal ("cannot block a current-thread tokio runtime; evaluate policies "
    ++ "from a plain thread or a multi-thread runtime")

/-- The value of a result. -/
def resultValue (ms : List Mapping) : Value := .seq (ms.map .map)

/-- A call with values: the arguments are checked, then the thread, then it is a query. -/
def call (limits : QueryLimits) (thread : Thread) (args : List Value) (s : Setting) :
    Outcome Value :=
  match args with
  | [collection, filter] =>
    match collection.asStr? with
    | none => .refused (.argument 1 s!"expected string, got {collection.kind}")
    | some name =>
      match filter.asMapping? with
      | none => .refused (.argument 2 s!"expected object, got {filter.kind}")
      | some m =>
        if thread.mayBlock then (run limits name m s).map resultValue else .refused cannotBlock
  | args => .refused (.type s!"expected 2 arguments, got {args.length}" none)

/-- How queries touch a world. -/
structure Access (σ : Type) where
  /-- The setting in which a query under the given signal starts. -/
  setting : SignalId → σ → Setting
  /-- The world after a query that sent a request, is to be counted, and took some time. -/
  settle : Option FindRequest → Option Metrics.Event → Nat → σ → σ

namespace Access

variable {σ α : Type}

/-- Puts down what has come of a query. -/
def conclude (access : Access σ) (o : Outcome α) (w : σ) : Except Error α × σ :=
  (o.result, access.settle o.request o.event o.elapsed w)

/-- The function in a world. -/
def function (access : Access σ) (limits : QueryLimits) : ExternalFunction σ where
  signature := signature
  run := fun context args w =>
    access.conclude (call limits context.thread args (access.setting context.signal w)) w

end Access

end Query

end PolicyLookup
