/-
  PolicyLookup.Proofs.Metrics — when two stretches of time change the counters alike.

  Counters are compared by what is added to them, so that two runs can be compared that began
  with different counts.  The time spent in queries is left out.

    * `SameChange.trans` — changes that are alike stretch by stretch are alike as a whole.
    * `SameChange.record` — the same event changes all counters alike.
-/

import PolicyLookup.Metrics

namespace PolicyLookup

namespace Metrics

/-- How many calls have failed with an error of the given category. -/
def failuresOf (m : Metrics) (category : String) : Nat :=
  (Keyed.get? m.callFailures category).getD 0

/-- From `b` to `a` every counter grew by as much as from `b'` to `a'`. -/
structure SameChange (b a b' a' : Metrics) : Prop where
  storeQueries : a.storeQueries + b'.storeQueries = a'.storeQueries + b.storeQueries
  storeFailures : a.storeFailures + b'.storeFailures = a'.storeFailures + b.storeFailures
  documentsReturned :
    a.documentsReturned + b'.documentsReturned = a'.documentsReturned + b.documentsReturned
  memoHits : a.memoHits + b'.memoHits = a'.memoHits + b.memoHits
  evaluations : a.evaluations + b'.evaluations = a'.evaluations + b.evaluations
  callFailures : ∀ category,
    a.failuresOf category + b'.failuresOf category = a'.failuresOf category + b.failuresOf category

/-- Nothing happened. -/
theorem SameChange.rfl {m m' : Metrics} : SameChange m m m' m' where
  storeQueries := Nat.add_comm _ _
  storeFailures := Nat.add_comm _ _
  documentsReturned := Nat.add_comm _ _
  memoHits := Nat.add_comm _ _
  evaluations := Nat.add_comm _ _
  callFailures := fun _ => Nat.add_comm _ _

/-- One stretch of time after another. -/
theorem SameChange.trans {b m a b' m' a' : Metrics} (h₁ : SameChange b m b' m')
    (h₂ : SameChange m a m' a') : SameChange b a b' a' := by
  constructor
  · have h := h₁.storeQueries
    have h' := h₂.storeQueries
    omega
  · have h := h₁.storeFailures
    have h' := h₂.storeFailures
    omega
  · have h := h₁.documentsReturned
    have h' := h₂.documentsReturned
    omega
  · have h := h₁.memoHits
    have h' := h₂.memoHits
    omega
  · have h := h₁.evaluations
    have h' := h₂.evaluations
    omega
  · intro category
    have h := h₁.callFailures category
    have h' := h₂.callFailures category
    omega

/-- A failed call is counted under its category and under no other. -/
theorem failuresOf_record_callFailure (m : Metrics) (category k : String) :
    (m.record (.callFailure category)).failuresOf k
      = m.failuresOf k + if category = k then 1 else 0 := by
  unfold failuresOf
  show (Keyed.get? (countFailure category m.callFailures) k).getD 0 = _
  unfold countFailure
  rw [Keyed.get?_insert]
  split
  · next h => rw [h]; rfl
  · rfl

/-- The same event. -/
theorem SameChange.record (m m' : Metrics) (event : Event) :
    SameChange m (m.record event) m' (m'.record event) := by
  cases event with
  | callFailure category =>
    have hunchanged : SameChange m m m' m' := .rfl
    refine ⟨hunchanged.1, hunchanged.2, hunchanged.3, hunchanged.4, hunchanged.5, ?_⟩
    intro k
    rw [failuresOf_record_callFailure, failuresOf_record_callFailure]
    omega
  | query nanos documents =>
    constructor <;> simp only [Metrics.record, failuresOf] <;> omega
  | memoHit =>
    constructor <;> simp only [Metrics.record, failuresOf] <;> omega
  | evaluation =>
    constructor <;> simp only [Metrics.record, failuresOf] <;> omega

end Metrics

end PolicyLookup
