/-
  PolicyLookup.Proofs.Evaluation.Distinct — an evaluation that succeeds runs each call once.

  Let every function memoize, and every call of an evaluation succeed.  Then no function runs on
  the same arguments twice, because the first run has left its result; and a call that reuses a
  result finds it under the key of an earlier run, which with a digest that confuses no two calls
  was a run of the same function on the same arguments.  So the runs are the distinct calls, each
  of them once.

    * `exists_earlier_of_memoized?` — a result that a call finds has been left by an earlier run.
    * `nodup_executions`, `mem_executions_iff` — the runs are the distinct calls.
-/

import Mathlib.Data.List.Nodup
import PolicyLookup.Proofs.Evaluation.Arguments
import PolicyLookup.Proofs.Evaluation.Snapshot

namespace PolicyLookup

namespace CallSite

variable {σ α : Type} {site : CallSite σ}

/-! ## §1. Where results come from. -/

/-- What a call leaves in the slot was there before, or comes from a run of this call that has
succeeded. -/
theorem origin_invokeState {c : Call σ} {key : String} {v : Value}
    (h : (site.invokeState c.function c.terms c.state).slot.memoized? key = some v) :
    c.state.slot.memoized? key = some v ∨
      ∃ args, c.Completes site args ∧ CallKey.ofCall site.digest c.name args = .ok key := by
  cases ha : site.invokeAnswer c.function c.terms c.state with
  | error e =>
    rw [invokeState_of_error ha, Slot.memoized?_fail] at h
    exact Or.inl h
  | ok t =>
    rw [invokeState_of_ok ha] at h
    cases hp : plan site.digest c.function.signature c.terms c.state.slot with
    | refuse e =>
      rw [hp] at h
      exact Or.inl h
    | reuse u =>
      rw [hp] at h
      exact Or.inl h
    | run context args k =>
      rw [hp] at h
      simp only [carryOut] at h
      split at h
      · exact Or.inl h
      · obtain ⟨hcontext, -, hkey⟩ := plan_eq_run hp
        rcases hkey with ⟨rfl, -⟩ | ⟨k, rfl, -, hk, -⟩
        · exact Or.inl h
        · have hget := Slot.memoized?_memoize (Slot.isRunning_of_context hcontext) k key
          by_cases hkk : k = key
          · refine Or.inr ⟨args, ⟨?_, t, ha⟩, hkk ▸ hk⟩
            unfold Call.runs
            rw [hp]
            exact .head _
          · left
            rw [← h]
            exact (Eq.trans (hget _) (if_neg hkk)).symm

variable {functions : List (ExternalFunction σ)} {script : Script σ α} {s : CallState σ}

/-- **A result that a call finds** has been left by an earlier run that succeeded. -/
theorem exists_earlier_of_memoized? (hs : ∀ key, s.slot.memoized? key = none)
    {before after : List (Call σ)} {c : Call σ}
    (hsplit : site.calls functions script s = before ++ c :: after) {key : String} {v : Value}
    (hv : c.state.slot.memoized? key = some v) :
    ∃ d ∈ before, ∃ args, d.Completes site args ∧
      CallKey.ofCall site.digest d.name args = .ok key := by
  refine calls_prefix
    (P := fun earlier s => ∀ key v, s.slot.memoized? key = some v → ∃ d ∈ earlier, ∃ args,
      d.Completes site args ∧ CallKey.ofCall site.digest d.name args = .ok key)
    (Q := fun _ => True) ?_ (fun earlier s change _ hearlier => hearlier) script [] s
    (script.allChanges_of_forall fun _ => trivial) ?_ before c after hsplit key v hv
  · intro earlier c _ hearlier key v hv
    rcases origin_invokeState hv with hv | ⟨args, hcompletes, hkey⟩
    · obtain ⟨d, hd, hleft⟩ := hearlier key v hv
      exact ⟨d, List.mem_append_left _ hd, hleft⟩
    · exact ⟨c, by simp, args, hcompletes, hkey⟩
  · intro key v hv
    rw [hs key] at hv
    cases hv

/-! ## §2. The runs of an evaluation. -/

/-- A call that succeeds has arguments, and either runs its function on them or finds a result
under their key. -/
theorem arguments_of_succeeds {c : Call σ} (h : c.Succeeds site) : ∃ args,
    c.arguments = .ok args ∧ (c.runs site = [args] ∨ c.runs site = [] ∧
      ∃ key v, CallKey.ofCall site.digest c.name args = .ok key
        ∧ c.state.slot.memoized? key = some v) := by
  obtain ⟨t, ht⟩ := h
  have hanswer : site.invokeAnswer c.function c.terms c.state = .ok t := ht
  rw [invokeAnswer_eq] at hanswer
  unfold Call.runs
  cases hp : plan site.digest c.function.signature c.terms c.state.slot with
  | refuse e =>
    rw [hp] at hanswer
    cases hanswer
  | run context args key => exact ⟨args, (plan_eq_run hp).2.1, Or.inl rfl⟩
  | reuse v =>
    obtain ⟨args, hargs, key, hkey, hv⟩ := plan_eq_reuse hp
    exact ⟨args, hargs, Or.inr ⟨rfl, key, v, hkey, hv⟩⟩

theorem mem_executions {name : String} {args : List Value} :
    (name, args) ∈ site.executions functions script s
      ↔ ∃ c ∈ site.calls functions script s, c.name = name ∧ args ∈ c.runs site := by
  unfold executions
  simp only [List.mem_flatMap, List.mem_map, Prod.mk.injEq]
  constructor
  · rintro ⟨c, hc, args', hruns, hname, rfl⟩
    exact ⟨c, hc, hname, hruns⟩
  · rintro ⟨c, hc, hname, hruns⟩
    exact ⟨c, hc, args, hruns, hname, rfl⟩

/-- **No function runs on the same arguments twice.** -/
theorem nodup_executions (hmemo : ∀ f ∈ functions, f.signature.memoize = true)
    (hsucceed : ∀ c ∈ site.calls functions script s, c.Succeeds site) :
    (site.executions functions script s).Nodup := by
  unfold executions
  rw [List.nodup_flatMap]
  constructor
  · intro c hc
    obtain ⟨args, -, hruns | ⟨hruns, -⟩⟩ := arguments_of_succeeds (hsucceed c hc)
    · rw [hruns]
      exact List.nodup_singleton _
    · rw [hruns]
      exact List.nodup_nil
  · refine (site.calls_pairwise_settles functions script s).imp_of_mem ?_
    intro c d hc hd hsettles p hp hp'
    obtain ⟨args, hruns, rfl⟩ := List.mem_map.mp hp
    obtain ⟨args', hruns', hpair⟩ := List.mem_map.mp hp'
    obtain ⟨hname, rfl⟩ := Prod.mk.inj hpair
    obtain ⟨t, ht⟩ := hsucceed c hc
    have hm : c.function.signature.memoize = true :=
      hmemo c.function (List.mem_of_find?_eq_some (find?_name_of_mem_calls site script s c hc))
    exact (hsettles args' t hm hruns ht hname).1 hruns'

/-- **The runs are the calls**, each with what its terms decode to. -/
theorem mem_executions_iff (hs : ∀ key, s.slot.memoized? key = none)
    (hsucceed : ∀ c ∈ site.calls functions script s, c.Succeeds site)
    (hfree : CollisionFree site.digest (site.calls functions script s)) {name : String}
    {args : List Value} :
    (name, args) ∈ site.executions functions script s
      ↔ ∃ c ∈ site.calls functions script s, c.name = name ∧ c.arguments = .ok args := by
  rw [mem_executions]
  constructor
  · rintro ⟨c, hc, hname, hruns⟩
    exact ⟨c, hc, hname, Call.arguments_of_mem_runs hruns⟩
  · rintro ⟨c, hc, hname, hargs⟩
    obtain ⟨args', hargs', hruns⟩ := arguments_of_succeeds (hsucceed c hc)
    obtain rfl : args' = args := Except.ok.inj (hargs'.symm.trans hargs)
    rcases hruns with hruns | ⟨-, key, v, hkey, hv⟩
    · exact ⟨c, hc, hname, by rw [hruns]; exact .head _⟩
    · -- The run that left the result was a run of the same call.
      obtain ⟨before, after, hsplit⟩ := List.append_of_mem hc
      obtain ⟨d, hd, args, ⟨hruns, -⟩, hkey'⟩ := exists_earlier_of_memoized? hs hsplit hv
      have hd : d ∈ site.calls functions script s := hsplit ▸ List.mem_append_left _ hd
      obtain ⟨hname', rfl⟩ := hfree.eq_of_ofCall_eq hd hc (Call.arguments_of_mem_runs hruns)
        hargs hkey' hkey
      exact ⟨d, hd, hname'.trans hname, hruns⟩

end CallSite

end PolicyLookup
