/-
  PolicyLookup.Host.Call — one call of an external function from a policy.

  The arguments are decoded and checked in order.  A function that memoizes is not run again
  for arguments that it has answered in this evaluation.  A result must have the declared shape
  and be encodable, and only then is it kept.  A call that fails is counted under its category,
  and the first failure of an evaluation is kept.
-/

import PolicyLookup.Evaluation.CallKey
import PolicyLookup.Evaluation.Script
import PolicyLookup.Evaluation.Slot
import PolicyLookup.Metrics
import PolicyLookup.Signature

namespace PolicyLookup

/-- A function that policies can call, acting on a world `σ`. -/
structure ExternalFunction (σ : Type) where
  signature : Signature
  run : CallContext → List Value → σ → Except Error Value × σ

/-- What calls need beside the function: how keys are made and where events are reported. -/
structure CallSite (σ : Type) where
  digest : List UInt8 → String
  record : Metrics.Event → σ → σ

/-- The state that calls act on. -/
structure CallState (σ : Type) where
  slot : Slot
  world : σ

namespace CallSite

variable {σ : Type}

/-- Decodes arguments, the first of which has the given position; the first bad one is the
error. -/
def decodeArgs (position : Nat) : List Term → List Shape → Except Error (List Value)
  | t :: terms, s :: shapes =>
    match t.decodeArgument s position with
    | .error e => .error e
    | .ok v => (decodeArgs (position + 1) terms shapes).map (v :: ·)
  | _, _ => .ok []

/-- The number of arguments is not the declared one. -/
def wrongArity (f : Signature) (count : Nat) : Error :=
  .type (s!"{f.name} expects {f.arity} arguments, got {count}") none

/-- A result does not have the declared shape. -/
def wrongResult (f : Signature) (v : Value) : Error :=
  .encoding (s!"{f.name} returned {v.kind}, declared {f.result.name}") "<root>"

/-- Runs a function and checks the shape of its result. -/
def run (f : ExternalFunction σ) (context : CallContext) (args : List Value) (w : σ) :
    Except Error Value × σ :=
  match f.run context args w with
  | (.error e, w) => (.error e, w)
  | (.ok v, w) =>
    if f.signature.result.accepts v then (.ok v, w) else (.error (wrongResult f.signature v), w)

/-- Runs a function and encodes its result; the value is kept for the memo. -/
def runEncoded (f : ExternalFunction σ) (context : CallContext) (args : List Value) (w : σ) :
    Except Error (Value × Term) × σ :=
  match run f context args w with
  | (.error e, w) => (.error e, w)
  | (.ok v, w) => (v.toTerm.map fun t => (v, t), w)

/-- A call with decoded arguments. -/
def answer (site : CallSite σ) (f : ExternalFunction σ) (context : CallContext)
    (args : List Value) (s : CallState σ) : Except Error Term × CallState σ :=
  if f.signature.memoize then
    match CallKey.ofCall site.digest f.signature.name args with
    | .error e => (.error e, s)
    | .ok key =>
      match s.slot.memoized? key with
      | some v => (v.toTerm, { s with world := site.record .memoHit s.world })
      | none =>
        match runEncoded f context args s.world with
        | (.error e, w) => (.error e, { s with world := w })
        | (.ok (v, t), w) => (.ok t, { slot := s.slot.memoize key v, world := w })
  else
    match runEncoded f context args s.world with
    | (.error e, w) => (.error e, { s with world := w })
    | (.ok (_, t), w) => (.ok t, { s with world := w })

/-- A call with the terms that the policy passes. -/
def call (site : CallSite σ) (f : ExternalFunction σ) (args : List Term) (s : CallState σ) :
    Except Error Term × CallState σ :=
  match s.slot.context with
  | .error e => (.error e, s)
  | .ok context =>
    if args.length ≠ f.signature.arity then (.error (wrongArity f.signature args.length), s)
    else
      match decodeArgs 1 args f.signature.args with
      | .error e => (.error e, s)
      | .ok vs => site.answer f context vs s

/-- A call, its failure counted and kept. -/
def invoke (site : CallSite σ) (f : ExternalFunction σ) (args : List Term) (s : CallState σ) :
    Except Error Term × CallState σ :=
  match site.call f args s with
  | (.ok t, s) => (.ok t, s)
  | (.error e, s) =>
    (.error e, ⟨s.slot.fail e, site.record (.callFailure e.category) s.world⟩)

/-! ## §1. Whole scripts. -/

/-- The function that is installed under a name. -/
def find? (functions : List (ExternalFunction σ)) (name : String) : Option (ExternalFunction σ) :=
  functions.find? fun f => f.signature.name == name

/-- Follows a script to its end.  A call of a function that is not installed fails within the
engine and leaves no trace. -/
def follow (site : CallSite σ) (functions : List (ExternalFunction σ)) {α : Type} :
    Script σ α → CallState σ → α × CallState σ
  | .done a, s => (a, s)
  | .meanwhile change next, s => site.follow functions next { s with world := change s.world }
  | .call function args next, s =>
    match find? functions function with
    | none => site.follow functions (next none) s
    | some f =>
      match site.invoke f args s with
      | (.ok t, s) => site.follow functions (next (some t)) s
      | (.error _, s) => site.follow functions (next none) s

/-- One evaluation: the slot is taken, the script followed, and the slot freed again.  A failed
call fails the evaluation whatever the engine made of it; else a fault of the engine does. -/
def evaluate (site : CallSite σ) (functions : List (ExternalFunction σ)) {α : Type}
    (signal : SignalId) (thread : Thread) (script : Script σ (Except EvaluationFault α))
    (s : CallState σ) : Except Error α × CallState σ :=
  match s.slot.enter signal thread with
  | .error e => (.error e, s)
  | .ok (_, slot) =>
    let (outcome, t) := site.follow functions script ⟨slot, site.record .evaluation s.world⟩
    let result :=
      match outcome, t.slot.failure? with
      | .ok a, none => .ok a
      | _, some e => .error e
      | .error fault, none => .error (.evaluation fault)
    (result, { t with slot := t.slot.leave })

end CallSite

end PolicyLookup
