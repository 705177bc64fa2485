/-
  PolicyLookup.Proofs.Host.Outlook — what functions can see of the world.

  An outlook says what a function, called under a signal, can see of a world, and where the
  world keeps its counters.  It fits functions that go by nothing else: not by the identity of
  the evaluation that calls them, not by the counters, and not by other signals.  In two worlds
  that look alike such functions answer alike, and step to worlds that look alike again.
-/

import PolicyLookup.Host.Call
import PolicyLookup.Proofs.Metrics

namespace PolicyLookup

/-- What can be seen of a world `σ` under a signal, and the counters that the world holds. -/
structure Outlook (σ ν : Type) where
  view : SignalId → σ → ν
  counters : σ → Metrics

namespace Outlook

variable {σ ν : Type}

/-- From `w` to `v` the same happens as from `w'` to `v'`: afterwards the worlds look alike, and
the counters have changed alike. -/
structure SameStep (o : Outlook σ ν) (signal signal' : SignalId) (w v w' v' : σ) : Prop where
  view : o.view signal v = o.view signal' v'
  counters : Metrics.SameChange (o.counters w) (o.counters v) (o.counters w') (o.counters v')

theorem SameStep.trans {o : Outlook σ ν} {signal signal' : SignalId} {w v u w' v' u' : σ}
    (h₁ : o.SameStep signal signal' w v w' v') (h₂ : o.SameStep signal signal' v u v' u') :
    o.SameStep signal signal' w u w' u' :=
  ⟨h₂.view, h₁.counters.trans h₂.counters⟩

/-- Reports and functions go by what can be seen, under whatever signals. -/
structure Fits (o : Outlook σ ν) (site : CallSite σ) (functions : List (ExternalFunction σ)) :
    Prop where
  record : ∀ {signal signal' : SignalId} {w w' : σ} (event : Metrics.Event),
    o.view signal w = o.view signal' w' →
      o.SameStep signal signal' w (site.record event w) w' (site.record event w')
  answer : ∀ f ∈ functions, ∀ {signal signal' : SignalId} {w w' : σ} (i i' : Nat)
    (thread : Thread) (args : List Value), o.view signal w = o.view signal' w' →
      (f.run ⟨i, signal, thread⟩ args w).1 = (f.run ⟨i', signal', thread⟩ args w').1
  step : ∀ f ∈ functions, ∀ {signal signal' : SignalId} {w w' : σ} (i i' : Nat)
    (thread : Thread) (args : List Value), o.view signal w = o.view signal' w' →
      o.SameStep signal signal' w (f.run ⟨i, signal, thread⟩ args w).2
        w' (f.run ⟨i', signal', thread⟩ args w').2

end Outlook

/-- What happens outside between the steps of a script goes by what can be seen. -/
def Script.Fits {σ ν α : Type} (o : Outlook σ ν) (signal signal' : SignalId) :
    Script σ α → Prop
  | .done _ => True
  | .call _ _ next => ∀ r, (next r).Fits o signal signal'
  | .meanwhile change next =>
    (∀ w w', o.view signal w = o.view signal' w' →
      o.SameStep signal signal' w (change w) w' (change w')) ∧ next.Fits o signal signal'

end PolicyLookup
