/-
  PolicyLookup.Evaluation.Signal — cancellation signals.

  A signal is known by its number; copies of it share the number, and with it the state.  A
  signal that has fired stays so.
-/

namespace PolicyLookup

/-- The identity of a signal. -/
abbrev SignalId := Nat

/-- The state of all signals. -/
structure Signals where
  /-- How many signals have been made; the next one gets this number. -/
  made : Nat
  /-- The signals that have fired. -/
  fired : List SignalId
  /-- Signals that will fire by themselves, and when. -/
  alarms : List (SignalId × Nat)
deriving Inhabited

namespace Signals

/-- No signal has been made. -/
def empty : Signals := ⟨0, [], []⟩

/-- A new signal. -/
def make (s : Signals) : SignalId × Signals := (s.made, { s with made := s.made + 1 })

/-- Fires a signal. -/
def fire (s : Signals) (id : SignalId) : Signals := { s with fired := id :: s.fired }

/-- Whether a signal has fired; whoever waits for it is then ready. -/
def hasFired (s : Signals) (id : SignalId) : Bool := s.fired.contains id

/-- Lets a signal fire at a later time. -/
def schedule (s : Signals) (id : SignalId) (time : Nat) : Signals :=
  { s with alarms := (id, time) :: s.alarms }

/-- The time at which a signal will fire by itself. -/
def due? (s : Signals) (id : SignalId) : Option Nat :=
  ((s.alarms.filter fun a => a.1 == id).map Prod.snd).min?

/-- Fires the signals whose time has come. -/
def ring (s : Signals) (now : Nat) : Signals :=
  { s with
    fired := ((s.alarms.filter fun a => decide (a.2 ≤ now)).map Prod.fst) ++ s.fired
    alarms := s.alarms.filter fun a => decide (now < a.2) }

/-- Forgets the signals that were to fire later. -/
def clearAlarms (s : Signals) : Signals := { s with alarms := [] }

end Signals

end PolicyLookup
