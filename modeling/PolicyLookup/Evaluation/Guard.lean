/-
  PolicyLookup.Evaluation.Guard — a slot whose evaluations are held by named guards.

  Beginning an evaluation yields a guard, and giving the guard up ends the evaluation.  As the
  slot admits one evaluation at a time, at most one guard is held.
-/

import PolicyLookup.Evaluation.Slot

namespace PolicyLookup

/-- A slot, the guards that are held, and the signals of the evaluations. -/
structure GuardedSlot where
  slot : Slot
  signals : Signals
  /-- The guards that are held, by name, with the identities of their evaluations. -/
  guards : List (String × Nat)
  /-- The identities of all evaluations so far. -/
  identities : List Nat

namespace GuardedSlot

/-- Nothing has begun. -/
def empty : GuardedSlot := ⟨.empty, .empty, [], []⟩

instance : Inhabited GuardedSlot := ⟨empty⟩

/-- What is known about an evaluation that has begun. -/
structure Begun where
  /-- Calls see the identity that the guard has. -/
  sameIdentity : Bool
  /-- No earlier evaluation had the identity. -/
  freshIdentity : Bool
deriving DecidableEq

/-- The guard of a name. -/
def guard? (s : GuardedSlot) (name : String) : Option Nat := Keyed.get? s.guards name

/-- Begins an evaluation under a signal, held by a guard of the given name; the result is its
identity. -/
def enter (s : GuardedSlot) (name : String) (signal : SignalId) (thread : Thread) :
    Except Error Nat × GuardedSlot :=
  match s.slot.enter signal thread with
  | .error e => (.error e, s)
  | .ok (id, slot) =>
    (.ok id, { s with
      slot := slot
      guards := (name, id) :: s.guards.filter fun g => !(g.1 == name)
      identities := id :: s.identities })

/-- Begins an evaluation with a new signal, which may have fired already. -/
def begin (s : GuardedSlot) (name : String) (fired : Bool) : Except Error Begun × GuardedSlot :=
  let (signal, signals) := s.signals.make
  let signals := if fired then signals.fire signal else signals
  match ({ s with signals := signals }).enter name signal .plain with
  | (.error e, _) => (.error e, s)
  | (.ok id, t) =>
    let same := match t.slot.context with
      | .ok context => decide (context.evaluation = id)
      | .error _ => false
    (.ok ⟨same, !s.identities.contains id⟩, t)

/-- Gives a guard up, which ends its evaluation; says whether there was one. -/
def finish (s : GuardedSlot) (name : String) : Bool × GuardedSlot :=
  match s.guard? name with
  | none => (false, s)
  | some _ =>
    (true, { s with slot := s.slot.leave, guards := s.guards.filter fun g => !(g.1 == name) })

/-- Whether the signal of the running evaluation has fired. -/
def isCancelled (s : GuardedSlot) : Except Error Bool :=
  s.slot.context.map fun context => s.signals.hasFired context.signal

/-- Fires the signal of the running evaluation. -/
def cancel (s : GuardedSlot) : Except Error Unit × GuardedSlot :=
  match s.slot.context with
  | .error e => (.error e, s)
  | .ok context => (.ok (), { s with signals := s.signals.fire context.signal })

/-- Keeps a result in the running evaluation. -/
def memoize (s : GuardedSlot) (key : String) (value : Value) : GuardedSlot :=
  { s with slot := s.slot.memoize key value }

/-- Keeps a failure in the running evaluation. -/
def fail (s : GuardedSlot) (e : Error) : GuardedSlot := { s with slot := s.slot.fail e }

/-- Takes the failure out of the evaluation of a guard, if the guard is held. -/
def takeFailure (s : GuardedSlot) (name : String) : Option (Option Error) × GuardedSlot :=
  match s.guard? name with
  | none => (none, s)
  | some _ => (some s.slot.failure?, { s with slot := s.slot.clearFailure })

end GuardedSlot

end PolicyLookup
