/-
  PolicyLookup.Evaluation.Slot — the one evaluation that a host may be running.

  While an evaluation runs, the slot holds its context, the results that are reused within it,
  and its first failure.  All of that ends with the evaluation; an evaluation cannot begin
  while another one runs.  Identities of evaluations are never used twice.
-/

import PolicyLookup.Error
import PolicyLookup.Evaluation.Signal
import PolicyLookup.Value.Basic

namespace PolicyLookup

/-- The kind of thread that evaluates. -/
inductive Thread where
  | plain
  /-- A worker of a runtime that has other workers. -/
  | multiThread
  /-- The only worker of a runtime; it must not wait. -/
  | currentThread
deriving DecidableEq, Inhabited

/-- Whether the thread may wait for a query. -/
def Thread.mayBlock : Thread → Bool
  | .currentThread => false
  | _ => true

/-- What an external function knows about the evaluation that calls it. -/
structure CallContext where
  evaluation : Nat
  signal : SignalId
  thread : Thread
deriving DecidableEq, Inhabited

/-- The state of a running evaluation. -/
structure ActiveEvaluation where
  context : CallContext
  /-- Results by memo key, the latest first. -/
  memo : List (String × Value)
  /-- The first failure of a call. -/
  failure : Option Error

/-- The place of the running evaluation. -/
structure Slot where
  active : Option ActiveEvaluation
  /-- How many evaluations have begun; the next one gets this identity. -/
  begun : Nat

namespace Slot

/-- Nothing runs and nothing has run. -/
def empty : Slot := ⟨none, 0⟩

instance : Inhabited Slot := ⟨empty⟩

/-- An evaluation runs already. -/
def busy : Error := .internal "an evaluation is already running on this host"

/-- No evaluation runs. -/
def idle : Error := .internal "external function called outside an evaluation"

/-- Begins an evaluation; the result is its identity. -/
def enter (s : Slot) (signal : SignalId) (thread : Thread) : Except Error (Nat × Slot) :=
  match s.active with
  | some _ => .error busy
  | none => .ok (s.begun, ⟨some ⟨⟨s.begun, signal, thread⟩, [], none⟩, s.begun + 1⟩)

/-- Ends the running evaluation. -/
def leave (s : Slot) : Slot := { s with active := none }

/-- The context of the running evaluation. -/
def context (s : Slot) : Except Error CallContext :=
  match s.active with
  | some a => .ok a.context
  | none => .error idle

/-- Keeps a result under a key, in place of an earlier one. -/
def memoize (s : Slot) (key : String) (value : Value) : Slot :=
  { s with
    active := s.active.map fun a =>
      { a with memo := (key, value) :: a.memo.filter fun e => !(e.1 == key) } }

/-- The result that is kept under a key. -/
def memoized? (s : Slot) (key : String) : Option Value :=
  s.active.bind fun a => Keyed.get? a.memo key

/-- How many results are kept. -/
def memoSize (s : Slot) : Nat :=
  match s.active with
  | some a => a.memo.length
  | none => 0

/-- Keeps a failure unless an earlier one is kept. -/
def fail (s : Slot) (e : Error) : Slot :=
  { s with
    active := s.active.map fun a =>
      { a with failure := match a.failure with | some first => some first | none => some e } }

/-- The failure that is kept. -/
def failure? (s : Slot) : Option Error := s.active.bind (·.failure)

/-- Forgets the failure that is kept. -/
def clearFailure (s : Slot) : Slot :=
  { s with active := s.active.map fun a => { a with failure := none } }

end Slot

end PolicyLookup
