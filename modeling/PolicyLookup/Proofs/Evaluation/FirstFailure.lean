/-
  PolicyLookup.Proofs.Evaluation.FirstFailure — no failed call is masked.

  The invariant of a running evaluation is that its slot keeps the first failure of the calls so
  far: each call adds its failure behind what is kept (`failure?_invokeState`), hence a script
  leaves the first failure of its calls (`failure?_follow`).  An evaluation begins without a
  failure, whatever happened before, and ends with the one it finds; only where there is none
  does the engine's own outcome count.
-/

import PolicyLookup.Proofs.Evaluation.History
import PolicyLookup.Proofs.Value.Encoding

namespace PolicyLookup

namespace Call

variable {σ : Type}

/-- The failure of a call, if it fails. -/
def failure? (site : CallSite σ) (c : Call σ) : Option Error :=
  match c.answer site with
  | .error e => some e
  | .ok _ => none

theorem failure?_eq_some {site : CallSite σ} {c : Call σ} {e : Error} :
    c.failure? site = some e ↔ c.answer site = .error e := by
  unfold failure?
  cases c.answer site <;> simp

theorem failure?_eq_none {site : CallSite σ} {c : Call σ} :
    c.failure? site = none ↔ c.Succeeds site := by
  unfold failure? Succeeds
  cases c.answer site <;> simp

end Call

namespace CallSite

variable {σ α : Type}

/-! ## §1. What a script leaves in the slot. -/

/-- The first failure of a list of calls. -/
def firstFailure (site : CallSite σ) (calls : List (Call σ)) : Option Error :=
  calls.findSome? (Call.failure? site)

/-- A call adds its failure behind the one that is kept. -/
theorem failure?_invokeState {site : CallSite σ} {f : ExternalFunction σ} {terms : List Term}
    {s : CallState σ} (h : s.slot.IsRunning) :
    (site.invokeState f terms s).slot.failure?
      = s.slot.failure?.or (Call.failure? site ⟨f, terms, s⟩) := by
  cases ha : site.invokeAnswer f terms s with
  | error e =>
    rw [invokeState_of_error ha, Call.failure?_eq_some (c := ⟨f, terms, s⟩).mpr ha]
    exact Slot.failure?_fail h e
  | ok t =>
    rw [invokeState_of_ok ha, Call.failure?_eq_none (c := ⟨f, terms, s⟩).mpr ⟨t, ha⟩,
      Option.or_none]
    -- A call that succeeds may keep a result, which is no failure.
    cases plan site.digest f.signature terms s.slot with
    | refuse e => rfl
    | reuse v => rfl
    | run context args key =>
      simp only [carryOut]
      split
      · rfl
      · cases key with
        | none => rfl
        | some key => exact Slot.failure?_memoize s.slot key _

/-- A script leaves the first failure of its calls, unless there was one before. -/
theorem failure?_follow (site : CallSite σ) (functions : List (ExternalFunction σ))
    (script : Script σ α) :
    ∀ s : CallState σ, s.slot.IsRunning →
      (site.follow functions script s).2.slot.failure?
        = s.slot.failure?.or (site.firstFailure (site.calls functions script s)) := by
  induction script with
  | done a =>
    intro s _
    show s.slot.failure? = s.slot.failure?.or none
    rw [Option.or_none]
  | meanwhile change next ih =>
    intro s hs
    exact ih { s with world := change s.world } hs
  | call function terms next ih =>
    intro s hs
    cases hf : find? functions function with
    | none =>
      simp only [follow, calls, hf]
      exact ih none s hs
    | some f =>
      -- The failure of this call comes behind the kept one and before those of the rest.
      rw [follow_call hf, calls_call hf, ih _ _ (isRunning_invokeState hs),
        failure?_invokeState hs, Option.or_assoc]
      unfold firstFailure
      rw [List.findSome?_cons]
      cases Call.failure? site ⟨f, terms, s⟩ <;> rfl

end CallSite

/-! ## §2. What an evaluation ends with. -/

namespace Host

variable {σ α : Type}

/-- An evaluation ends with the first failure of its calls; without one it ends as the engine
does. -/
theorem evaluateScript_of_isIdle {h : Host σ} (hidle : h.slot.IsIdle) (signal : SignalId)
    (thread : Thread) (script : Script σ (Except EvaluationFault α)) (w : σ) :
    (h.evaluateScript signal thread script w).1
      = match h.site.firstFailure (h.history signal thread script w) with
        | some e => .error e
        | none => (h.engineOutcome signal thread script w).mapError .evaluation := by
  have hfailure : (h.closing signal thread script w).slot.failure?
      = h.site.firstFailure (h.history signal thread script w) := by
    rw [history_of_isIdle hidle]
    exact h.site.failure?_follow h.functions script (h.opening signal thread w)
      (Slot.isRunning_opened h.slot signal thread)
  rw [evaluateScript_result hidle, hfailure]
  cases h.site.firstFailure (h.history signal thread script w) with
  | some e => cases h.engineOutcome signal thread script w <;> rfl
  | none => cases h.engineOutcome signal thread script w <;> rfl

/-- An evaluation has a result exactly if the engine ended with it and every call succeeded. -/
theorem evaluateScript_eq_ok_iff {h : Host σ} (hidle : h.slot.IsIdle) {signal : SignalId}
    {thread : Thread} {script : Script σ (Except EvaluationFault α)} {w : σ} {a : α} :
    (h.evaluateScript signal thread script w).1 = .ok a ↔
      h.engineOutcome signal thread script w = .ok a
        ∧ ∀ c ∈ h.history signal thread script w, c.Succeeds h.site := by
  rw [evaluateScript_of_isIdle hidle]
  have hnone : (∀ c ∈ h.history signal thread script w, c.Succeeds h.site) ↔
      h.site.firstFailure (h.history signal thread script w) = none := by
    unfold CallSite.firstFailure
    rw [List.findSome?_eq_none_iff]
    exact forall₂_congr fun c _ => Call.failure?_eq_none.symm
  rw [hnone]
  cases h.site.firstFailure (h.history signal thread script w) with
  | some e => simp
  | none => simp [mapError_eq_ok_iff]

/-- **No failure is masked.**  On a host on which no evaluation runs, whatever the engine does:

* an evaluation has a result exactly if the engine ended with it and every call succeeded;
* if a call failed, the evaluation fails with the error of the first call that did;
* if none failed and the engine gave up, it fails with the fault of the engine. -/
theorem evaluateScript_masks_no_failure {h : Host σ} (hidle : h.slot.IsIdle) (signal : SignalId)
    (thread : Thread) (script : Script σ (Except EvaluationFault α)) (w : σ) :
    (∀ a, (h.evaluateScript signal thread script w).1 = .ok a ↔
      h.engineOutcome signal thread script w = .ok a
        ∧ ∀ c ∈ h.history signal thread script w, c.Succeeds h.site) ∧
    (∀ before c after e, h.history signal thread script w = before ++ c :: after →
      (∀ d ∈ before, d.Succeeds h.site) → c.answer h.site = .error e →
        (h.evaluateScript signal thread script w).1 = .error e) ∧
    (∀ fault, h.engineOutcome signal thread script w = .error fault →
      (∀ c ∈ h.history signal thread script w, c.Succeeds h.site) →
        (h.evaluateScript signal thread script w).1 = .error (.evaluation fault)) := by
  have hnone : (∀ c ∈ h.history signal thread script w, c.Succeeds h.site) ↔
      h.site.firstFailure (h.history signal thread script w) = none := by
    unfold CallSite.firstFailure
    rw [List.findSome?_eq_none_iff]
    exact forall₂_congr fun c _ => Call.failure?_eq_none.symm
  rw [evaluateScript_of_isIdle hidle]
  refine ⟨?_, ?_, ?_⟩
  · intro a
    rw [hnone]
    cases h.site.firstFailure (h.history signal thread script w) with
    | some e => simp
    | none =>
      -- Without a failure the verdict is the engine's own outcome, up to the kind of its fault.
      cases h.engineOutcome signal thread script w with
      | error fault =>
        show Except.error (Error.evaluation fault) = .ok a ↔ Except.error fault = .ok a ∧ _
        simp only [reduceCtorEq, false_and]
      | ok b =>
        show Except.ok b = .ok a ↔ Except.ok b = .ok a ∧ _
        simp only [Except.ok.injEq, and_true]
  · intro before c after e hcalls hbefore hc
    -- The search passes over the calls before, which succeeded, and stops at `c`.
    have hfirst : h.site.firstFailure (h.history signal thread script w) = some e := by
      unfold CallSite.firstFailure
      rw [hcalls, List.findSome?_append,
        List.findSome?_eq_none_iff.mpr fun d hd => Call.failure?_eq_none.mpr (hbefore d hd),
        Option.none_or, List.findSome?_cons, Call.failure?_eq_some.mpr hc]
    rw [hfirst]
  · intro fault houtcome hall
    rw [hnone.mp hall, houtcome]
    rfl

/-- A function without arguments that always fails. -/
def failing (name : String) (e : Error) : ExternalFunction Unit where
  signature := ⟨name, [], .any, .nondeterministic, false⟩
  run := fun _ _ w => (.error e, w)

/-- A host with two functions that fail differently. -/
def frail : Host Unit where
  site := ⟨fun _ => "", fun _ w => w⟩
  functions := [failing "first" (.internal "one"), failing "second" (.internal "two")]
  engine := .empty
  slot := .empty

/-- An engine that calls one function after the other and does not mind their failures. -/
def heedless : Script Unit (Except EvaluationFault Nat) :=
  .call "first" [] fun _ => .call "second" [] fun _ => .done (.ok 7)

theorem evaluateScript_masks_no_failure_heedless :
    frail.slot.IsIdle ∧ frail.engineOutcome 0 .plain heedless () = .ok 7
      ∧ (frail.evaluateScript 0 .plain heedless ()).1 = .error (.internal "one") := by
  have hidle : frail.slot.IsIdle := rfl
  obtain ⟨-, hfirst, -⟩ := evaluateScript_masks_no_failure hidle 0 .plain heedless ()
  refine ⟨hidle, rfl, hfirst [] _ _ _ rfl ?_ rfl⟩
  intro d hd
  cases hd

end Host

end PolicyLookup
