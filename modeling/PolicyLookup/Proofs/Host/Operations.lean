/-
  PolicyLookup.Proofs.Host.Operations — what can be done with a host, and what is left of it.

  A host is made new and then changed by operations.  Evaluations touch nothing but the slot, and
  give it back idle; all other operations leave the slot alone and do not look at it.  So a host
  is what its operations other than evaluations made of it (`performAll_eq_prepared`), and no
  evaluation runs on it (`isIdle_performAll`).
-/

import PolicyLookup.Proofs.Evaluation.History

namespace PolicyLookup

namespace Host

/-- Something that is done with a host.  An evaluation may follow any script, in any world. -/
inductive Operation (σ : Type) where
  | register (f : ExternalFunction σ)
  | addPolicy (path : String) (source : Option Policy.Module)
  | addPolicyFile (path : String) (file : Option (Option Policy.Module))
  | addData (text : String)
  | setInput (text : String)
  | evaluate (signal : SignalId) (thread : Thread)
      (script : Script σ (Except EvaluationFault Term)) (w : σ)

/-- Whether an operation is an evaluation. -/
def Operation.isEvaluation {σ : Type} : Operation σ → Bool
  | .evaluate .. => true
  | _ => false

variable {σ α : Type}

/-- The host after an operation, whether it failed or not. -/
def perform (h : Host σ) : Operation σ → Host σ
  | .register f => (h.register f).2
  | .addPolicy path source => (h.addPolicy path source).2
  | .addPolicyFile path file => (h.addPolicyFile path file).2
  | .addData text => (h.addData text).2
  | .setInput text => (h.setInput text).2
  | .evaluate signal thread script w => (h.evaluateScript signal thread script w).2.1

/-- The host after operations, one after the other. -/
def performAll (h : Host σ) (ops : List (Operation σ)) : Host σ := ops.foldl perform h

/-- A host that was made new and has been used. -/
def Reachable (h : Host σ) : Prop := ∃ site ops, h = (Host.new site).performAll ops

/-! ## §1. One operation. -/

/-- The same host with another slot. -/
def withSlot (h : Host σ) (s : Slot) : Host σ := { h with slot := s }

/-- An operation other than an evaluation neither changes the slot nor depends on it. -/
theorem perform_withSlot (h : Host σ) (s : Slot) {op : Operation σ}
    (hop : op.isEvaluation = false) : (h.withSlot s).perform op = (h.perform op).withSlot s := by
  cases op with
  | register f =>
    simp only [perform, register, withSlot]
    cases f.signature.validate with
    | error e => rfl
    | ok u =>
      by_cases htaken : (h.functions.any fun g => g.signature.name == f.signature.name) = true
      · simp only [htaken, if_true]
      · by_cases hlarge : Signature.maxArity < f.signature.arity
        · simp only [htaken, hlarge, Bool.false_eq_true, if_true, if_false]
        · simp only [htaken, hlarge, Bool.false_eq_true, if_false]
          cases h.engine.addExtension f.signature.name f.signature.arity <;> rfl
  | addPolicy path source => cases source <;> rfl
  | addPolicyFile path file =>
    rcases file with _ | source
    · rfl
    · cases source <;> rfl
  | addData text =>
    simp only [perform, addData, withSlot]
    cases Json.ofText? text with
    | none => rfl
    | some document =>
      dsimp only
      rcases h.engine.addData (Term.ofJson document) with ⟨_ | _, engine⟩ <;> rfl
  | setInput text =>
    simp only [perform, setInput, withSlot]
    cases Json.ofText? text <;> rfl
  | evaluate signal thread script w => cases hop

theorem slot_perform (h : Host σ) {op : Operation σ} (hop : op.isEvaluation = false) :
    (h.perform op).slot = h.slot := by
  have hsame : h.withSlot h.slot = h := rfl
  rw [← hsame, perform_withSlot h h.slot hop]
  rfl

/-- An evaluation changes nothing but the slot. -/
theorem evaluateScript_host (h : Host σ) (signal : SignalId) (thread : Thread)
    (script : Script σ (Except EvaluationFault α)) (w : σ) :
    ∃ s, (h.evaluateScript signal thread script w).2.1 = h.withSlot s :=
  ⟨_, rfl⟩

/-- An evaluation gives an idle slot back idle, whatever it ended with. -/
theorem isIdle_evaluateScript {h : Host σ} (hidle : h.slot.IsIdle) (signal : SignalId)
    (thread : Thread) (script : Script σ (Except EvaluationFault α)) (w : σ) :
    (h.evaluateScript signal thread script w).2.1.slot.IsIdle := by
  simp only [evaluateScript, CallSite.evaluate, Slot.enter_of_isIdle hidle]
  exact Slot.isIdle_leave _

theorem isIdle_perform {h : Host σ} (hidle : h.slot.IsIdle) (op : Operation σ) :
    (h.perform op).slot.IsIdle := by
  by_cases hop : op.isEvaluation = false
  · rw [slot_perform h hop]
    exact hidle
  · cases op with
    | evaluate signal thread script w => exact isIdle_evaluateScript hidle signal thread script w
    | register f => exact absurd rfl hop
    | addPolicy path source => exact absurd rfl hop
    | addPolicyFile path file => exact absurd rfl hop
    | addData text => exact absurd rfl hop
    | setInput text => exact absurd rfl hop

theorem site_perform (h : Host σ) (op : Operation σ) : (h.perform op).site = h.site := by
  cases op with
  | register f =>
    simp only [perform, register]
    repeat' split
    all_goals rfl
  | addPolicy path source => cases source <;> rfl
  | addPolicyFile path file =>
    rcases file with _ | source
    · rfl
    · cases source <;> rfl
  | addData text =>
    simp only [perform, addData]
    repeat' split
    all_goals rfl
  | setInput text =>
    simp only [perform, setInput]
    split <;> rfl
  | evaluate signal thread script w => rfl

/-! ## §2. Many operations. -/

theorem isIdle_performAll {h : Host σ} (hidle : h.slot.IsIdle) (ops : List (Operation σ)) :
    (h.performAll ops).slot.IsIdle := by
  induction ops generalizing h with
  | nil => exact hidle
  | cons op ops ih => exact ih (isIdle_perform hidle op)

/-- No evaluation runs on a host between its operations. -/
theorem Reachable.isIdle {h : Host σ} (hreach : h.Reachable) : h.slot.IsIdle := by
  obtain ⟨site, ops, rfl⟩ := hreach
  exact isIdle_performAll (h := .new site) rfl ops

/-- The site of calls is chosen when the host is made. -/
theorem site_performAll (h : Host σ) (ops : List (Operation σ)) :
    (h.performAll ops).site = h.site := by
  induction ops generalizing h with
  | nil => rfl
  | cons op ops ih => exact (ih (h.perform op)).trans (site_perform h op)

theorem performAll_withSlot (h : Host σ) (s : Slot) (ops : List (Operation σ))
    (hops : ∀ op ∈ ops, op.isEvaluation = false) :
    (h.withSlot s).performAll ops = (h.performAll ops).withSlot s := by
  induction ops generalizing h with
  | nil => rfl
  | cons op ops ih =>
    show ((h.withSlot s).perform op).performAll ops = ((h.perform op).performAll ops).withSlot s
    rw [perform_withSlot h s (hops op (.head _))]
    exact ih (h.perform op) fun op' hop' => hops op' (.tail _ hop')

/-- The operations that prepare a host: all but the evaluations. -/
def preparations (ops : List (Operation σ)) : List (Operation σ) :=
  ops.filter fun op => !op.isEvaluation

theorem isEvaluation_of_mem_preparations {ops : List (Operation σ)} {op : Operation σ}
    (h : op ∈ preparations ops) : op.isEvaluation = false := by
  unfold preparations at h
  simpa using (List.mem_filter.mp h).2

/-- **A host is what its preparations made of it.**  The evaluations before leave their traces
in the slot only. -/
theorem performAll_eq_prepared (h : Host σ) (ops : List (Operation σ)) :
    ∃ s, h.performAll ops = (h.performAll (preparations ops)).withSlot s := by
  induction ops generalizing h with
  | nil => exact ⟨h.slot, rfl⟩
  | cons op ops ih =>
    obtain ⟨s, hs⟩ := ih (h.perform op)
    cases hop : op.isEvaluation with
    | false =>
      have hcons : preparations (op :: ops) = op :: preparations ops := by
        simp [preparations, hop]
      rw [hcons]
      exact ⟨s, hs⟩
    | true =>
      have hcons : preparations (op :: ops) = preparations ops := by
        simp [preparations, hop]
      -- The evaluation leaves a host with another slot, which the preparations carry along.
      rw [hcons]
      cases op with
      | evaluate signal thread script w =>
        obtain ⟨s', hs'⟩ := evaluateScript_host h signal thread script w
        refine ⟨s, ?_⟩
        show (h.perform (.evaluate signal thread script w)).performAll ops = _
        rw [hs]
        show Host.withSlot (Host.performAll (h.evaluateScript signal thread script w).2.1
          (preparations ops)) s = _
        rw [hs', performAll_withSlot h s' _ fun op hop => isEvaluation_of_mem_preparations hop]
        rfl
      | register f => cases hop
      | addPolicy path source => cases hop
      | addPolicyFile path file => cases hop
      | addData text => cases hop
      | setInput text => cases hop

end Host

end PolicyLookup
