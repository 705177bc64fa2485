/-
  PolicyLookup.Proofs.Evaluation.Snapshot — within one evaluation a memoized function answers
  equal arguments alike.

  The invariant is `Slot.Holds`: for a function and its arguments a value is kept, and the value
  has a given term.  A call that runs the function and succeeds establishes it; no call and no
  change of the world takes it away, because a result is kept only under a key that has none;
  and where it holds, a call of the function on these arguments is answered from the slot.

  Nothing is assumed of the digest: a collision can make a call reuse the result of another one,
  but then its own function never runs.
-/

import PolicyLookup.Proofs.Evaluation.History

namespace PolicyLookup

/-- A value with the given term is kept for a function and its arguments. -/
def Slot.Holds (digest : List UInt8 → String) (name : String) (args : List Value) (t : Term)
    (s : Slot) : Prop :=
  ∃ key v, CallKey.ofCall digest name args = .ok key ∧ s.memoized? key = some v
    ∧ v.toTerm = .ok t

namespace CallSite

variable {σ α : Type}

/-! ## §1. When a function runs, and when it does not. -/

/-- A function runs only on its decoded arguments, and if it memoizes only if no result is kept
under the key of the call. -/
theorem plan_eq_run {digest : List UInt8 → String} {f : Signature} {terms : List Term} {s : Slot}
    {context : CallContext} {args : List Value} {key : Option String}
    (h : plan digest f terms s = .run context args key) :
    s.context = .ok context ∧ arguments f terms = .ok args ∧
      (key = none ∧ f.memoize = false ∨
        ∃ k, key = some k ∧ f.memoize = true ∧ CallKey.ofCall digest f.name args = .ok k
          ∧ s.memoized? k = none) := by
  unfold plan at h
  cases hc : s.context with
  | error e => rw [hc] at h; cases h
  | ok c =>
    cases ha : arguments f terms with
    | error e => rw [hc, ha] at h; cases h
    | ok vs =>
      rw [hc, ha] at h
      -- A plan to run is made in two places: without a key, and with a key that has no result.
      simp only [planOf] at h
      split at h
      · next hm =>
        split at h
        · cases h
        · next k hk =>
          split at h
          · cases h
          · next hnone =>
            cases h
            exact ⟨rfl, rfl, .inr ⟨k, rfl, hm, hk, hnone⟩⟩
      · next hm =>
        cases h
        exact ⟨rfl, rfl, .inl ⟨rfl, Bool.eq_false_iff.mpr hm⟩⟩

/-- A result is reused only if it is kept under the key of the call. -/
theorem plan_eq_reuse {digest : List UInt8 → String} {f : Signature} {terms : List Term} {s : Slot}
    {v : Value} (h : plan digest f terms s = .reuse v) : ∃ args, arguments f terms = .ok args ∧
      ∃ key, CallKey.ofCall digest f.name args = .ok key ∧ s.memoized? key = some v := by
  unfold plan at h
  cases hc : s.context with
  | error e => rw [hc] at h; cases h
  | ok c =>
    cases ha : arguments f terms with
    | error e => rw [hc, ha] at h; cases h
    | ok args =>
      rw [hc, ha] at h
      simp only [planOf] at h
      split at h
      · split at h
        · cases h
        · next key hkey =>
          split at h
          · next u hu =>
            cases h
            exact ⟨args, rfl, key, hkey, hu⟩
          · cases h
      · cases h

theorem plan_of_mem_runs {digest : List UInt8 → String} {f : Signature} {terms : List Term}
    {s : Slot} {args : List Value} (h : args ∈ (plan digest f terms s).runs) :
    ∃ context key, plan digest f terms s = .run context args key := by
  cases hp : plan digest f terms s with
  | refuse e => rw [hp] at h; cases h
  | reuse v => rw [hp] at h; cases h
  | run context vs key =>
    rw [hp] at h
    obtain rfl := List.mem_singleton.mp h
    exact ⟨context, key, rfl⟩

/-- Where a result is kept for a call, the call reuses it. -/
theorem plan_of_holds {digest : List UInt8 → String} {f : Signature} {terms : List Term}
    {s : Slot} {args : List Value} {t : Term} (hm : f.memoize = true)
    (hargs : arguments f terms = .ok args) (h : s.Holds digest f.name args t) :
    ∃ v, plan digest f terms s = .reuse v ∧ v.toTerm = .ok t := by
  obtain ⟨key, v, hkey, hv, ht⟩ := h
  obtain ⟨context, hc⟩ := (Slot.isRunning_of_memoized? hv).context
  exact ⟨v, plan_found hc hargs hm hkey hv, ht⟩

/-- What a run brings is the term of its value. -/
theorem toTerm_of_runEncoded {f : ExternalFunction σ} {context : CallContext}
    {args : List Value} {w w' : σ} {v : Value} {t : Term}
    (h : runEncoded f context args w = (.ok (v, t), w')) : v.toTerm = .ok t := by
  rw [runEncoded_eq] at h
  have hencoded := (Prod.mk.inj h).1
  unfold encoded at hencoded
  split at hencoded
  · cases hencoded
  · next x _ =>
    split at hencoded
    · cases hx : x.toTerm with
      | error e => rw [hx] at hencoded; cases hencoded
      | ok u => rw [hx] at hencoded; cases hencoded; exact hx
    · cases hencoded

/-! ## §2. One call. -/

/-- A kept result stays through every call. -/
theorem memoized?_invokeState {site : CallSite σ} {f : ExternalFunction σ} {terms : List Term}
    {s : CallState σ} {k : String} {v : Value} (h : s.slot.memoized? k = some v) :
    (site.invokeState f terms s).slot.memoized? k = some v := by
  cases ha : site.invokeAnswer f terms s with
  | error e => rw [invokeState_of_error ha, Slot.memoized?_fail, h]
  | ok t =>
    rw [invokeState_of_ok ha]
    cases hp : plan site.digest f.signature terms s.slot with
    | refuse e => exact h
    | reuse u => exact h
    | run context args key =>
      simp only [carryOut]
      split
      · exact h
      · obtain ⟨-, -, hkey⟩ := plan_eq_run hp
        rcases hkey with ⟨rfl, -⟩ | ⟨k', rfl, -, -, hnone⟩
        · exact h
        · show (s.slot.memoize k' _).memoized? k = some v
          -- the run kept its result under a key that had none, hence not under `k`
          have hne : k' ≠ k := by
            rintro rfl
            rw [hnone] at h
            cases h
          rw [Slot.memoized?_memoize (Slot.isRunning_of_memoized? h), if_neg hne, h]

theorem holds_invokeState {site : CallSite σ} {name : String} {args : List Value} {t : Term}
    (f : ExternalFunction σ) (terms : List Term) (s : CallState σ)
    (h : s.slot.Holds site.digest name args t) :
    (site.invokeState f terms s).slot.Holds site.digest name args t := by
  obtain ⟨key, v, hkey, hv, ht⟩ := h
  exact ⟨key, v, hkey, memoized?_invokeState hv, ht⟩

end CallSite

namespace Call

variable {σ : Type}

/-- The call runs its function on the given arguments, and succeeds. -/
def Completes (site : CallSite σ) (args : List Value) (c : Call σ) : Prop :=
  args ∈ c.runs site ∧ c.Succeeds site

/-- A call runs its function on what its terms decode to. -/
theorem arguments_of_mem_runs {site : CallSite σ} {c : Call σ} {args : List Value}
    (h : args ∈ c.runs site) : c.arguments = .ok args := by
  obtain ⟨context, key, hp⟩ := CallSite.plan_of_mem_runs h
  exact (CallSite.plan_eq_run hp).2.1

/-- A run that succeeds leaves its result for the calls to come. -/
theorem holds_of_completes {site : CallSite σ} {c : Call σ} {args : List Value} {t : Term}
    (hm : c.function.signature.memoize = true) (hruns : args ∈ c.runs site)
    (ht : c.answer site = .ok t) :
    (site.invokeState c.function c.terms c.state).slot.Holds site.digest c.name args t := by
  obtain ⟨context, key, hp⟩ := CallSite.plan_of_mem_runs hruns
  obtain ⟨hcontext, -, hkey⟩ := CallSite.plan_eq_run hp
  -- Results are kept only while an evaluation runs; it does, because there is a context.
  have hrunning : c.state.slot.IsRunning := Slot.isRunning_of_context hcontext
  rcases hkey with ⟨-, hfalse⟩ | ⟨k, rfl, -, hk, -⟩
  · rw [hm] at hfalse
    cases hfalse
  -- With a key, what the run brought is kept, and its term is the answer.
  · have hanswer : site.invokeAnswer c.function c.terms c.state = .ok t := ht
    rw [CallSite.invokeState_of_ok hanswer]
    rw [CallSite.invokeAnswer_eq, hp] at hanswer
    rw [hp]
    simp only [CallSite.carryOut] at hanswer ⊢
    split at hanswer
    · cases hanswer
    · next v u w hrun =>
      cases hanswer
      refine ⟨k, v, hk, ?_, CallSite.toTerm_of_runEncoded hrun⟩
      show (c.state.slot.memoize k v).memoized? k = some v
      rw [Slot.memoized?_memoize hrunning, if_pos rfl]

/-- Where a result is kept for a call, the call answers with it and runs nothing. -/
theorem answer_of_holds {site : CallSite σ} {c : Call σ} {args : List Value} {t : Term}
    (hm : c.function.signature.memoize = true) (hargs : c.arguments = .ok args)
    (h : c.state.slot.Holds site.digest c.name args t) :
    c.answer site = .ok t ∧ c.runs site = [] := by
  obtain ⟨v, hp, ht⟩ := CallSite.plan_of_holds hm hargs h
  constructor
  · show site.invokeAnswer c.function c.terms c.state = .ok t
    rw [CallSite.invokeAnswer_eq, hp]
    exact ht
  · show (CallSite.plan site.digest c.function.signature c.terms c.state.slot).runs = []
    rw [hp]
    rfl

end Call

/-! ## §3. Whole scripts. -/

/-- What one call settles for a later one: the function does not run on the same arguments
again, and a call that decodes to them has the same answer without a run. -/
def Call.Settles {σ : Type} (site : CallSite σ) (c d : Call σ) : Prop :=
  ∀ args t, c.function.signature.memoize = true → args ∈ c.runs site → c.answer site = .ok t →
    d.name = c.name →
      args ∉ d.runs site ∧ (d.arguments = .ok args → d.answer site = .ok t ∧ d.runs site = [])

theorem CallSite.calls_pairwise_settles {σ α : Type} (site : CallSite σ)
    (functions : List (ExternalFunction σ)) (script : Script σ α) :
    ∀ s : CallState σ, (site.calls functions script s).Pairwise (Call.Settles site) := by
  induction script with
  | done a =>
    intro s
    exact .nil
  | meanwhile change next ih =>
    intro s
    exact ih { s with world := change s.world }
  | call function terms next ih =>
    intro s
    cases hf : find? functions function with
    | none =>
      simp only [calls, hf]
      exact ih none s
    | some f =>
      rw [calls_call hf]
      refine .cons ?_ (ih _ _)
      intro d hd args t hm hruns ht hname
      -- both calls are of the function that is installed under the name
      have hfd := find?_name_of_mem_calls site _ _ d hd
      have hff : find? functions f.signature.name = some f :=
        find?_name_of_mem_calls site (.call function terms next) s ⟨f, terms, s⟩
          (by rw [calls_call hf]; exact .head _)
      have hfun : d.function = f := by
        rw [hname] at hfd
        exact Option.some.inj (hfd.symm.trans hff)
      have hmd : d.function.signature.memoize = true := by
        rw [hfun]
        exact hm
      -- the result is kept when the call ends, and is still there when `d` is made
      have hheld := calls_invariant
        (P := Slot.Holds site.digest f.signature.name args t) _ _
        (Call.holds_of_completes (c := ⟨f, terms, s⟩) hm hruns ht)
        (fun c _ => holds_invokeState c.function c.terms c.state) d hd
      have hheld' : d.state.slot.Holds site.digest d.name args t := by
        rw [hname]
        exact hheld
      have hanswer : d.arguments = .ok args → d.answer site = .ok t ∧ d.runs site = [] :=
        fun hargs => Call.answer_of_holds hmd hargs hheld'
      refine ⟨?_, hanswer⟩
      intro hrun
      have hnone := (hanswer (Call.arguments_of_mem_runs hrun)).2
      rw [hnone] at hrun
      cases hrun

/-- **Snapshot and at most once.**  During one evaluation, whatever the functions do, whatever
happens outside, and whatever the engine calls:

* functions that note what they are run on note the runs of each call and of the whole evaluation,
  and nothing else is different;
* of the calls of a memoized function, at most one runs it on given arguments and succeeds;
* after such a call the function does not run on these arguments again, and every call of it
  whose terms decode to them succeeds with the same term and without a run. -/
theorem Host.history_snapshot {σ α : Type} (h : Host σ) (signal : SignalId) (thread : Thread)
    (script : Script σ α) (w : σ) :
    (∀ c ∈ h.history signal thread script w,
      h.site.noting.invoke c.function.noting c.terms (c.state.withNotes [])
        = (c.answer h.site, (h.site.invokeState c.function c.terms c.state).withNotes
            ((c.runs h.site).map (c.name, ·)))) ∧
    (h.slot.IsIdle →
      h.site.noting.follow (h.functions.map .noting) script.noting
          ((h.opening signal thread w).withNotes [])
        = (h.engineOutcome signal thread script w, (h.closing signal thread script w).withNotes
            ((h.history signal thread script w).flatMap fun c =>
              (c.runs h.site).map (c.name, ·)))) ∧
    ((h.history signal thread script w).Pairwise fun c d =>
      ∀ args, c.function.signature.memoize = true → d.name = c.name →
        ¬ (c.Completes h.site args ∧ d.Completes h.site args)) ∧
    ((h.history signal thread script w).Pairwise fun c d =>
      ∀ args t, c.function.signature.memoize = true → args ∈ c.runs h.site →
        c.answer h.site = .ok t → d.name = c.name →
          args ∉ d.runs h.site ∧
            (d.arguments = .ok args → d.answer h.site = .ok t ∧ d.runs h.site = [])) := by
  have hsettles : (h.history signal thread script w).Pairwise (Call.Settles h.site) := by
    unfold Host.history
    cases h.slot.active with
    | some a => exact .nil
    | none => exact h.site.calls_pairwise_settles h.functions script _
  refine ⟨?_, ?_, hsettles.imp ?_, hsettles⟩
  · intro c _
    exact h.site.invoke_noting c.function c.terms c.state []
  · intro hidle
    rw [h.site.follow_noting, Host.history_of_isIdle hidle]
    rfl
  · rintro c d hcd args hm hname ⟨⟨hruns, t, ht⟩, hruns', -⟩
    exact (hcd args t hm hruns ht hname).1 hruns'

/-- A set and the array of its elements are the same argument. -/
example (items : List Term) : (Term.set items).toValue = (Term.arr items).toValue := rfl

end PolicyLookup
