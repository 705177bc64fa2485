/-
  PolicyLookup.Session.Scripted — external functions that follow a script.

  Such a function notes which evaluation calls it.  It answers with its arguments, with the
  number of the call, by way of the signal of the evaluation, or from a list of answers the
  last of which serves for all further calls.
-/

import PolicyLookup.Session.World

namespace PolicyLookup

/-- What a scripted function does. -/
inductive Behavior where
  /-- Answers with the first argument. -/
  | echo
  /-- Answers with all arguments. -/
  | args
  /-- Answers with the number of the call. -/
  | count
  /-- Fires the signal of the evaluation. -/
  | cancel
  /-- Says whether the signal of the evaluation has fired. -/
  | cancelled
  /-- Gives one answer after the other. -/
  | answers (list : List (Except Error Value))

namespace Behavior

/-- The answer to the call with the given number; the last answer serves from then on. -/
def nth : List (Except Error Value) → Nat → Except Error Value
  | [], _ => .ok .null
  | [last], _ => last
  | first :: _, 0 => first
  | _ :: rest, n + 1 => nth rest n

/-- What a call does, the earlier calls being so many. -/
def act (b : Behavior) (earlier : Nat) (context : CallContext) (args : List Value) (w : World) :
    Except Error Value × World :=
  match b with
  | .echo => (.ok (args.headD .null), w)
  | .args => (.ok (.seq args), w)
  | .count => (.ok (.int (Int64.ofNat (earlier + 1))), w)
  | .cancel => (.ok (.bool true), { w with signals := w.signals.fire context.signal })
  | .cancelled => (.ok (.bool (w.signals.hasFired context.signal)), w)
  | .answers list => (nth list earlier, w)

/-- The function; its calls are noted under `log`. -/
def function (b : Behavior) (signature : Signature) (log : Nat) : ExternalFunction World where
  signature := signature
  run := fun context args w =>
    let earlier := ((w.calls.get? log).getD []).length
    b.act earlier context args
      { w with calls := w.calls.modify log (· ++ [context.evaluation]) }

end Behavior

end PolicyLookup
