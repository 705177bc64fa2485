/-
  PolicyLookup.Proofs.Host.Life — a host in a world that goes on.

  A host is prepared, evaluates, is prepared further and evaluates again, and between its activities
  the world changes by itself.  Each evaluation finds the world that everything before has left.
  The log of a life is the calls of all its evaluations in their order.

    * `isIdle_live`, `site_live`, `functions_live` — what stays through an activity.
-/

import PolicyLookup.Proofs.Host.Operations

namespace PolicyLookup

namespace Host

/-- What happens next in the life of a host. -/
inductive Activity (σ : Type) where
  /-- A function, a policy, data or an input is given to the host. -/
  | prepare (op : Operation σ) (h : op.isEvaluation = false)
  | evaluate (signal : SignalId) (thread : Thread)
      (script : Script σ (Except EvaluationFault Term))
  /-- The world changes by itself. -/
  | meanwhile (change : σ → σ)

variable {σ : Type}

/-- Whether an activity is an evaluation. -/
def Activity.isEvaluation : Activity σ → Bool
  | .evaluate .. => true
  | _ => false

/-- The host and its world after an activity. -/
def live (s : Host σ × σ) : Activity σ → Host σ × σ
  | .prepare op _ => (s.1.perform op, s.2)
  | .evaluate signal thread script => (s.1.evaluateScript signal thread script s.2).2
  | .meanwhile change => (s.1, change s.2)

/-- The calls of an activity. -/
def callsOf (s : Host σ × σ) : Activity σ → List (Call σ)
  | .evaluate signal thread script => s.1.history signal thread script s.2
  | _ => []

/-- The host and its world after activities, one after the other. -/
def liveAll (s : Host σ × σ) (activities : List (Activity σ)) : Host σ × σ :=
  activities.foldl live s

/-- The calls of activities, one after the other. -/
def log : Host σ × σ → List (Activity σ) → List (Call σ)
  | _, [] => []
  | s, a :: rest => callsOf s a ++ log (live s a) rest

variable {s : Host σ × σ} (a : Activity σ)

theorem isIdle_live (h : s.1.slot.IsIdle) : (live s a).1.slot.IsIdle := by
  cases a with
  | prepare op hop => exact isIdle_perform h op
  | evaluate signal thread script => exact isIdle_evaluateScript h signal thread script s.2
  | meanwhile change => exact h

theorem site_live : (live s a).1.site = s.1.site := by
  cases a with
  | prepare op hop => exact site_perform s.1 op
  | evaluate signal thread script => rfl
  | meanwhile change => rfl

/-- An operation installs no function but the one that it is given. -/
theorem mem_functions_perform {h : Host σ} {op : Operation σ} {f : ExternalFunction σ}
    (hf : f ∈ (h.perform op).functions) : f ∈ h.functions ∨ op = .register f := by
  cases op with
  | register g =>
    simp only [perform, register] at hf
    repeat' split at hf
    · exact Or.inl hf
    · exact Or.inl hf
    · exact Or.inl hf
    · exact Or.inl hf
    · rcases List.mem_append.mp hf with hf | hf
      · exact Or.inl hf
      · exact Or.inr (by rw [List.mem_singleton.mp hf])
  | addPolicy path source =>
    cases source <;> exact Or.inl hf
  | addPolicyFile path file =>
    rcases file with _ | source
    · exact Or.inl hf
    · cases source <;> exact Or.inl hf
  | addData text =>
    simp only [perform, addData] at hf
    repeat' split at hf
    all_goals exact Or.inl hf
  | setInput text =>
    simp only [perform, setInput] at hf
    split at hf <;> exact Or.inl hf
  | evaluate signal thread script w => exact Or.inl hf

/-- An activity installs no function but the one that it registers. -/
theorem functions_live {f : ExternalFunction σ} (hf : f ∈ (live s a).1.functions) :
    f ∈ s.1.functions ∨ ∃ h, a = .prepare (.register f) h := by
  cases a with
  | prepare op hop =>
    rcases mem_functions_perform hf with hf | rfl
    · exact Or.inl hf
    · exact Or.inr ⟨hop, rfl⟩
  | evaluate signal thread script => exact Or.inl hf
  | meanwhile change => exact Or.inl hf

end Host

end PolicyLookup
