/-
  PolicyLookup.Proofs.Evaluation.Earlier — calls that repeat an earlier call.

  Whatever has been answered is kept under the key of its call, and whatever is kept has been
  answered before.  So with a digest that confuses no two calls, a call of a memoized function finds
  a result exactly if it repeats an earlier call that succeeded, and then it has the same answer.

    * `holds_of_earlier` — what an earlier call has answered is still kept.
    * `answer_of_earlier` — a call that repeats an earlier one has its answer.
    * `repeats_of_memoized?` — a call that finds a result repeats an earlier one.
-/

import PolicyLookup.Proofs.Evaluation.Distinct

namespace PolicyLookup

/-! ## §1. What a call that succeeds leaves. -/

namespace Call

variable {σ : Type} {site : CallSite σ}

/-- The call has the name and the arguments of an earlier one that succeeded. -/
def Repeats (site : CallSite σ) (earlier : List (Call σ)) (c : Call σ) : Prop :=
  ∃ d ∈ earlier, d.name = c.name ∧ d.Succeeds site ∧
    ∃ args, d.arguments = .ok args ∧ c.arguments = .ok args

/-- **A call that succeeds leaves its result**, whether it has run its function or not. -/
theorem holds_of_answer {c : Call σ} {args : List Value} {t : Term}
    (hm : c.function.signature.memoize = true) (hargs : c.arguments = .ok args)
    (ht : c.answer site = .ok t) :
    (site.invokeState c.function c.terms c.state).slot.Holds site.digest c.name args t := by
  have hanswer : site.invokeAnswer c.function c.terms c.state = .ok t := ht
  rw [CallSite.invokeAnswer_eq] at hanswer
  cases hplan : CallSite.plan site.digest c.function.signature c.terms c.state.slot with
  | refuse e =>
    rw [hplan] at hanswer
    cases hanswer
  | reuse v =>
    rw [hplan] at hanswer
    obtain ⟨args', hargs', key, hkey, hv⟩ := CallSite.plan_eq_reuse hplan
    obtain rfl : args' = args := Except.ok.inj (hargs'.symm.trans hargs)
    exact CallSite.holds_invokeState c.function c.terms c.state ⟨key, v, hkey, hv, hanswer⟩
  | run context args' key =>
    obtain rfl : args' = args :=
      Except.ok.inj ((CallSite.plan_eq_run hplan).2.1.symm.trans hargs)
    have hruns : args' ∈ c.runs site := by
      unfold runs
      rw [hplan]
      exact .head _
    exact holds_of_completes hm hruns ht

end Call

/-- **What an earlier call has answered is still kept.** -/
theorem CallSite.holds_of_earlier {σ α : Type} {site : CallSite σ}
    {functions : List (ExternalFunction σ)} {script : Script σ α} {s : CallState σ}
    {before after : List (Call σ)} {c d : Call σ}
    (hsplit : site.calls functions script s = before ++ c :: after) (hd : d ∈ before)
    (hm : d.function.signature.memoize = true) {args : List Value} {t : Term}
    (hargs : d.arguments = .ok args) (ht : d.answer site = .ok t) :
    c.state.slot.Holds site.digest d.name args t := by
  refine calls_prefix
    (P := fun earlier s => d ∈ earlier → s.slot.Holds site.digest d.name args t)
    (Q := fun _ => True) ?_ (fun earlier s change _ hearlier => hearlier) script [] s
    (script.allChanges_of_forall fun _ => trivial) (fun hnone => nomatch hnone) before c after
    hsplit hd
  intro earlier c _ hearlier hd
  rcases List.mem_append.mp hd with hd | hd
  · exact holds_invokeState c.function c.terms c.state (hearlier hd)
  · obtain rfl := List.mem_singleton.mp hd
    exact Call.holds_of_answer hm hargs ht

/-! ## §2. The calls of an evaluation. -/

namespace Host

variable {σ α : Type} {h : Host σ} {signal : SignalId} {thread : Thread} {script : Script σ α}
  {w : σ} {before after : List (Call σ)} {c : Call σ}

/-- **A call that repeats an earlier one has its answer.** -/
theorem answer_of_earlier (hsplit : h.history signal thread script w = before ++ c :: after)
    (hm : c.function.signature.memoize = true) {d : Call σ} (hd : d ∈ before)
    (hname : d.name = c.name) {args : List Value} (hdargs : d.arguments = .ok args)
    (hargs : c.arguments = .ok args) {t : Term} (ht : d.answer h.site = .ok t) :
    c.answer h.site = .ok t := by
  have hmem : ∀ e ∈ before ++ c :: after, e ∈ h.history signal thread script w :=
    fun e he => hsplit ▸ he
  -- Both calls are of the function that is installed under the name.
  have hfunction : d.function = c.function := by
    have hfound := find?_name_of_mem_history (hmem d (List.mem_append_left _ hd))
    rw [hname, find?_name_of_mem_history (hmem c (by simp))] at hfound
    exact (Option.some.inj hfound).symm
  have hkept := CallSite.holds_of_earlier (calls_of_history hsplit) hd (hfunction ▸ hm) hdargs ht
  rw [hname] at hkept
  exact (Call.answer_of_holds hm hargs hkept).1

/-- **A call that finds a result repeats an earlier one**, unless the digest confuses them. -/
theorem repeats_of_memoized? (hsplit : h.history signal thread script w = before ++ c :: after)
    (hfree : CollisionFree h.site.digest (h.history signal thread script w)) {args : List Value}
    (hargs : c.arguments = .ok args) {key : String} {v : Value}
    (hkey : CallKey.ofCall h.site.digest c.name args = .ok key)
    (hv : c.state.slot.memoized? key = some v) : c.Repeats h.site before := by
  obtain ⟨d, hd, args', hcompletes, hkey'⟩ :=
    CallSite.exists_earlier_of_memoized? (fun key => rfl) (calls_of_history hsplit) hv
  have hdargs := Call.arguments_of_mem_runs hcompletes.1
  have hdmem : d ∈ h.history signal thread script w := by
    rw [hsplit]
    exact List.mem_append_left _ hd
  have hcmem : c ∈ h.history signal thread script w := by
    rw [hsplit]
    simp
  obtain ⟨hname, rfl⟩ := hfree.eq_of_ofCall_eq hdmem hcmem hdargs hargs hkey' hkey
  exact ⟨d, hd, hname, hcompletes.2, args', hdargs, hargs⟩

end Host

end PolicyLookup
