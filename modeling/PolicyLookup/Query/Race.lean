/-
  PolicyLookup.Query.Race — which of three events ends a running find.

  A find ends when its signal fires, when the store answers, or when its time is up: by the
  event that is ready first, and of several that become ready together by the one that comes
  first in this list.  The request leaves for the store when the find is looked at for the
  first time, unless the signal is ready by then.
-/

namespace PolicyLookup

/-- The events that can end a find. -/
inductive FindEvent where
  | signal
  | answer
  | deadline
deriving DecidableEq, Inhabited

/-- When each event becomes ready, counted from the moment at which the find is looked at for
the first time. -/
structure Timeline where
  signal : Option Nat
  answer : Option Nat
  deadline : Nat
deriving DecidableEq, Inhabited

namespace Timeline

/-- The store's answer or the deadline, whichever is ready first; the answer if both are. -/
def withoutSignal (t : Timeline) : FindEvent × Nat :=
  match t.answer with
  | some a => if a ≤ t.deadline then (.answer, a) else (.deadline, t.deadline)
  | none => (.deadline, t.deadline)

/-- The event that ends the find, and when. -/
def decide (t : Timeline) : FindEvent × Nat :=
  match t.signal with
  | some s => if s ≤ t.withoutSignal.2 then (.signal, s) else t.withoutSignal
  | none => t.withoutSignal

/-- Whether the request leaves for the store. -/
def reachesStore (t : Timeline) : Bool := t.signal != some 0

end Timeline

end PolicyLookup
