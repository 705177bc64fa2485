/-
  PolicyLookup.Proofs.Evaluation.History — the calls of an evaluation, one after the other.

  What a call is going to do depends on its terms, the declaration of its function and the slot:
  it is refused, it reuses a kept result, or it runs the function.  A `Plan` says which, and
  nothing else can happen in a call.  `calls` lists the calls that a script makes, each with the
  state that it finds, so that statements about an evaluation are statements about this list.

    * `call_eq_carryOut` — a call does what its plan says.
    * `follow_call` — a script goes on with what a call answers and leaves behind.
    * `calls_invariant`, `calls_prefix` — what holds whenever a call is made.
    * `follow_noting` — functions that note what they are run on note exactly `executions`.
-/

import PolicyLookup.Host.Basic
import PolicyLookup.Proofs.Evaluation.Slot

namespace PolicyLookup

/-! ## §1. Plans. -/

/-- What a call is going to do. -/
inductive Plan where
  /-- It fails before its function is looked at. -/
  | refuse (e : Error)
  /-- It answers with a result that was kept. -/
  | reuse (v : Value)
  /-- It runs its function, and keeps the result if there is a key. -/
  | run (context : CallContext) (args : List Value) (key : Option String)

/-- The arguments on which the function is run: at most one list of them. -/
def Plan.runs : Plan → List (List Value)
  | .refuse _ => []
  | .reuse _ => []
  | .run _ args _ => [args]

/-- Keeps a result if there is a key. -/
def Slot.keep (s : Slot) (key : Option String) (v : Value) : Slot :=
  match key with
  | some key => s.memoize key v
  | none => s

namespace CallSite

variable {σ α : Type}

/-- The arguments of a call: as many terms as declared, each decoded. -/
def arguments (f : Signature) (terms : List Term) : Except Error (List Value) :=
  if terms.length ≠ f.arity then .error (wrongArity f terms.length) else decodeArgs 1 terms f.args

/-- The plan of a call with decoded arguments. -/
def planOf (digest : List UInt8 → String) (f : Signature) (context : CallContext)
    (args : List Value) (s : Slot) : Plan :=
  if f.memoize then
    match CallKey.ofCall digest f.name args with
    | .error e => .refuse e
    | .ok key =>
      match s.memoized? key with
      | some v => .reuse v
      | none => .run context args (some key)
  else .run context args none

/-- The plan of a call.  It depends neither on the world nor on what the function does. -/
def plan (digest : List UInt8 → String) (f : Signature) (terms : List Term) (s : Slot) : Plan :=
  match s.context with
  | .error e => .refuse e
  | .ok context =>
    match arguments f terms with
    | .error e => .refuse e
    | .ok args => planOf digest f context args s

/-- What is made of the result of a run: it must have the declared shape and a term. -/
def encoded (f : Signature) : Except Error Value → Except Error (Value × Term)
  | .error e => .error e
  | .ok v => if f.result.accepts v then v.toTerm.map fun t => (v, t) else .error (wrongResult f v)

theorem runEncoded_eq (f : ExternalFunction σ) (context : CallContext) (args : List Value)
    (w : σ) :
    runEncoded f context args w
      = (encoded f.signature (f.run context args w).1, (f.run context args w).2) := by
  unfold runEncoded run
  cases f.run context args w with
  | mk r v =>
    cases r with
    | error e => rfl
    | ok x => cases h : f.signature.result.accepts x <;> simp [encoded, h]

/-- Carries out a plan. -/
def carryOut (site : CallSite σ) (f : ExternalFunction σ) (s : CallState σ) :
    Plan → Except Error Term × CallState σ
  | .refuse e => (.error e, s)
  | .reuse v => (v.toTerm, { s with world := site.record .memoHit s.world })
  | .run context args key =>
    match runEncoded f context args s.world with
    | (.error e, w) => (.error e, { s with world := w })
    | (.ok (v, t), w) => (.ok t, ⟨s.slot.keep key v, w⟩)

theorem answer_eq_carryOut (site : CallSite σ) (f : ExternalFunction σ) (context : CallContext)
    (args : List Value) (s : CallState σ) :
    site.answer f context args s
      = site.carryOut f s (planOf site.digest f.signature context args s.slot) := by
  unfold answer planOf
  split
  · cases CallKey.ofCall site.digest f.signature.name args with
    | error e => rfl
    | ok key =>
      cases hm : s.slot.memoized? key with
      | some v => simp only [hm]; rfl
      | none => simp only [hm]; rfl
  · rfl

/-- **A call does what its plan says**, and nothing else. -/
theorem call_eq_carryOut (site : CallSite σ) (f : ExternalFunction σ) (terms : List Term)
    (s : CallState σ) :
    site.call f terms s = site.carryOut f s (plan site.digest f.signature terms s.slot) := by
  unfold call plan arguments
  cases s.slot.context with
  | error e => rfl
  | ok context =>
    by_cases hlen : terms.length ≠ f.signature.arity
    · simp only [if_pos hlen]
      rfl
    · simp only [if_neg hlen]
      cases decodeArgs 1 terms f.signature.args with
      | error e => rfl
      | ok args => exact answer_eq_carryOut site f context args s

section Plans

variable {digest : List UInt8 → String} {f : Signature} {terms : List Term} {s : Slot}
  {context : CallContext} {args : List Value}

theorem plan_of_arguments_error {e : Error} (hcontext : s.context = .ok context)
    (hargs : arguments f terms = .error e) : plan digest f terms s = .refuse e := by
  simp only [plan, hcontext, hargs]

theorem plan_without_memo (hcontext : s.context = .ok context)
    (hargs : arguments f terms = .ok args) (hm : f.memoize = false) :
    plan digest f terms s = .run context args none := by
  simp only [plan, hcontext, hargs, planOf, hm, Bool.false_eq_true, if_false]

theorem plan_found {key : String} {v : Value} (hcontext : s.context = .ok context)
    (hargs : arguments f terms = .ok args) (hm : f.memoize = true)
    (hkey : CallKey.ofCall digest f.name args = .ok key) (hv : s.memoized? key = some v) :
    plan digest f terms s = .reuse v := by
  simp only [plan, hcontext, hargs, planOf, hm, if_true, hkey, hv]

theorem plan_not_found {key : String} (hcontext : s.context = .ok context)
    (hargs : arguments f terms = .ok args) (hm : f.memoize = true)
    (hkey : CallKey.ofCall digest f.name args = .ok key) (hv : s.memoized? key = none) :
    plan digest f terms s = .run context args (some key) := by
  simp only [plan, hcontext, hargs, planOf, hm, if_true, hkey, hv]

end Plans

/-- What a plan leaves in the slot of a failed call: nothing new. -/
theorem carryOut_error_slot {site : CallSite σ} {f : ExternalFunction σ} {s t : CallState σ}
    {p : Plan} {e : Error} (h : site.carryOut f s p = (.error e, t)) : t.slot = s.slot := by
  cases p with
  | refuse e' => cases h; rfl
  | reuse v =>
    simp only [carryOut, Prod.mk.injEq] at h
    rw [← h.2]
  | run context args key =>
    simp only [carryOut] at h
    split at h
    · cases h; rfl
    · cases h

/-! ## §2. Calls. -/

/-- Counts and keeps the failure of a call. -/
def settle (site : CallSite σ) :
    Except Error Term × CallState σ → Except Error Term × CallState σ
  | (.ok t, s) => (.ok t, s)
  | (.error e, s) => (.error e, ⟨s.slot.fail e, site.record (.callFailure e.category) s.world⟩)

theorem invoke_eq_settle (site : CallSite σ) (f : ExternalFunction σ) (terms : List Term)
    (s : CallState σ) :
    site.invoke f terms s
      = site.settle (site.carryOut f s (plan site.digest f.signature terms s.slot)) := by
  unfold invoke
  rw [call_eq_carryOut]
  rfl

/-- What a call answers. -/
def invokeAnswer (site : CallSite σ) (f : ExternalFunction σ) (terms : List Term)
    (s : CallState σ) : Except Error Term := (site.invoke f terms s).1

/-- What a call leaves behind. -/
def invokeState (site : CallSite σ) (f : ExternalFunction σ) (terms : List Term)
    (s : CallState σ) : CallState σ := (site.invoke f terms s).2

theorem invokeAnswer_eq (site : CallSite σ) (f : ExternalFunction σ) (terms : List Term)
    (s : CallState σ) :
    site.invokeAnswer f terms s
      = (site.carryOut f s (plan site.digest f.signature terms s.slot)).1 := by
  unfold invokeAnswer
  rw [invoke_eq_settle]
  rcases site.carryOut f s (plan site.digest f.signature terms s.slot) with ⟨_ | _, _⟩ <;> rfl

/-- A call that succeeds leaves what its plan leaves. -/
theorem invokeState_of_ok {site : CallSite σ} {f : ExternalFunction σ} {terms : List Term}
    {s : CallState σ} {t : Term} (h : site.invokeAnswer f terms s = .ok t) :
    site.invokeState f terms s
      = (site.carryOut f s (plan site.digest f.signature terms s.slot)).2 := by
  rw [invokeAnswer_eq] at h
  unfold invokeState
  rw [invoke_eq_settle]
  cases hc : site.carryOut f s (plan site.digest f.signature terms s.slot) with
  | mk r u =>
    rw [hc] at h
    cases h
    rfl

/-- A call that fails leaves its failure in the slot, and is counted. -/
theorem invokeState_of_error {site : CallSite σ} {f : ExternalFunction σ} {terms : List Term}
    {s : CallState σ} {e : Error} (h : site.invokeAnswer f terms s = .error e) :
    site.invokeState f terms s
      = ⟨s.slot.fail e, site.record (.callFailure e.category)
          (site.carryOut f s (plan site.digest f.signature terms s.slot)).2.world⟩ := by
  rw [invokeAnswer_eq] at h
  unfold invokeState
  rw [invoke_eq_settle]
  cases hc : site.carryOut f s (plan site.digest f.signature terms s.slot) with
  | mk r u =>
    rw [hc] at h
    cases h
    -- The failure is kept in the slot that the call found, since failed calls keep no result.
    show CallState.mk (u.slot.fail e) _ = _
    rw [carryOut_error_slot hc]

/-- Two calls whose plans have one answer have one answer.  What relates the states that the plans
leave relates those of the calls, if it does so where a failure has been kept and counted. -/
theorem invoke_related {site : CallSite σ} {f f' : ExternalFunction σ} {terms : List Term}
    {s s' : CallState σ} {R : CallState σ → CallState σ → Prop}
    (hanswer : (site.carryOut f s (plan site.digest f.signature terms s.slot)).1
      = (site.carryOut f' s' (plan site.digest f'.signature terms s'.slot)).1)
    (hstate : R (site.carryOut f s (plan site.digest f.signature terms s.slot)).2
      (site.carryOut f' s' (plan site.digest f'.signature terms s'.slot)).2)
    (hfail : ∀ e : Error, R
      ⟨s.slot.fail e, site.record (.callFailure e.category)
        (site.carryOut f s (plan site.digest f.signature terms s.slot)).2.world⟩
      ⟨s'.slot.fail e, site.record (.callFailure e.category)
        (site.carryOut f' s' (plan site.digest f'.signature terms s'.slot)).2.world⟩) :
    site.invokeAnswer f terms s = site.invokeAnswer f' terms s'
      ∧ R (site.invokeState f terms s) (site.invokeState f' terms s') := by
  have hsame : site.invokeAnswer f terms s = site.invokeAnswer f' terms s' := by
    rw [invokeAnswer_eq, invokeAnswer_eq, hanswer]
  refine ⟨hsame, ?_⟩
  cases ha : site.invokeAnswer f terms s with
  | ok t =>
    rw [invokeState_of_ok ha, invokeState_of_ok (hsame.symm.trans ha)]
    exact hstate
  | error e =>
    rw [invokeState_of_error ha, invokeState_of_error (hsame.symm.trans ha)]
    exact hfail e

/-- A call leaves the context of the evaluation as it is. -/
theorem context_invokeState (site : CallSite σ) (f : ExternalFunction σ) (terms : List Term)
    (s : CallState σ) : (site.invokeState f terms s).slot.context = s.slot.context := by
  cases ha : site.invokeAnswer f terms s with
  | error e =>
    rw [invokeState_of_error ha]
    exact Slot.context_fail s.slot e
  | ok t =>
    rw [invokeState_of_ok ha]
    cases plan site.digest f.signature terms s.slot with
    | refuse e => rfl
    | reuse v => rfl
    | run context args key =>
      simp only [carryOut]
      split
      · rfl
      · cases key with
        | none => rfl
        | some key => exact Slot.context_memoize s.slot key _

/-- An evaluation goes on running through a call. -/
theorem isRunning_invokeState {site : CallSite σ} {f : ExternalFunction σ} {terms : List Term}
    {s : CallState σ} (h : s.slot.IsRunning) : (site.invokeState f terms s).slot.IsRunning := by
  obtain ⟨c, hc⟩ := h.context
  exact Slot.isRunning_of_context ((context_invokeState site f terms s).trans hc)

end CallSite

/-- Each change from outside within a script is of a certain kind. -/
def Script.AllChanges {σ α : Type} (Q : (σ → σ) → Prop) : Script σ α → Prop
  | .done _ => True
  | .call _ _ next => ∀ r, (next r).AllChanges Q
  | .meanwhile change next => Q change ∧ next.AllChanges Q

theorem Script.allChanges_of_forall {σ α : Type} {Q : (σ → σ) → Prop} (h : ∀ change, Q change)
    (script : Script σ α) : script.AllChanges Q := by
  induction script with
  | done a => trivial
  | call function terms next ih => exact ih
  | meanwhile change next ih => exact ⟨h change, ih⟩

/-- A call of an installed function, at the moment at which it is made. -/
structure Call (σ : Type) where
  function : ExternalFunction σ
  terms : List Term
  /-- The state that the call finds. -/
  state : CallState σ

namespace Call

variable {σ : Type}

/-- The name under which the function was called. -/
def name (c : Call σ) : String := c.function.signature.name

/-- What the terms of the call decode to. -/
def arguments (c : Call σ) : Except Error (List Value) :=
  CallSite.arguments c.function.signature c.terms

/-- What the call answers. -/
def answer (site : CallSite σ) (c : Call σ) : Except Error Term :=
  site.invokeAnswer c.function c.terms c.state

/-- The call succeeds. -/
def Succeeds (site : CallSite σ) (c : Call σ) : Prop := ∃ t, c.answer site = .ok t

/-- The arguments on which the call runs its function. -/
def runs (site : CallSite σ) (c : Call σ) : List (List Value) :=
  (CallSite.plan site.digest c.function.signature c.terms c.state.slot).runs

end Call

namespace CallSite

variable {σ α : Type}

/-! ## §3. The calls of a script. -/

/-- The calls of installed functions that a script makes, in their order. -/
def calls (site : CallSite σ) (functions : List (ExternalFunction σ)) :
    Script σ α → CallState σ → List (Call σ)
  | .done _, _ => []
  | .meanwhile change next, s => site.calls functions next { s with world := change s.world }
  | .call function terms next, s =>
    match find? functions function with
    | none => site.calls functions (next none) s
    | some f =>
      ⟨f, terms, s⟩ :: site.calls functions (next (site.invokeAnswer f terms s).toOption)
        (site.invokeState f terms s)

/-- A script goes on with what a call answers and leaves behind. -/
theorem follow_call {site : CallSite σ} {functions : List (ExternalFunction σ)}
    {function : String} {f : ExternalFunction σ} (h : find? functions function = some f)
    (terms : List Term) (next : Option Term → Script σ α) (s : CallState σ) :
    site.follow functions (.call function terms next) s
      = site.follow functions (next (site.invokeAnswer f terms s).toOption)
          (site.invokeState f terms s) := by
  simp only [follow, h, invokeAnswer, invokeState]
  cases site.invoke f terms s with
  | mk r t => cases r <;> rfl

theorem calls_call {site : CallSite σ} {functions : List (ExternalFunction σ)}
    {function : String} {f : ExternalFunction σ} (h : find? functions function = some f)
    (terms : List Term) (next : Option Term → Script σ α) (s : CallState σ) :
    site.calls functions (.call function terms next) s
      = ⟨f, terms, s⟩ :: site.calls functions (next (site.invokeAnswer f terms s).toOption)
          (site.invokeState f terms s) := by
  simp only [calls, h]

/-- What holds of a slot and is kept by every call of a script holds of the slot that each call
finds. -/
theorem calls_invariant {site : CallSite σ} {functions : List (ExternalFunction σ)}
    {P : Slot → Prop} (script : Script σ α) :
    ∀ s : CallState σ, P s.slot →
      (∀ c ∈ site.calls functions script s, P c.state.slot →
        P (site.invokeState c.function c.terms c.state).slot) →
      ∀ c ∈ site.calls functions script s, P c.state.slot := by
  induction script with
  | done a =>
    intro s _ _ c hc
    cases hc
  | meanwhile change next ih =>
    intro s hs hstep c hc
    exact ih { s with world := change s.world } hs hstep c hc
  | call function terms next ih =>
    intro s hs hstep c hc
    cases hf : find? functions function with
    | none =>
      simp only [calls, hf] at hstep hc
      exact ih none s hs hstep c hc
    | some f =>
      rw [calls_call hf] at hstep hc
      rcases List.mem_cons.mp hc with rfl | hc
      · exact hs
      · exact ih _ _ (hstep ⟨f, terms, s⟩ (.head _) hs) (fun d hd => hstep d (.tail _ hd)) c hc

/-- A function is called under its own name. -/
theorem find?_name_of_mem_calls (site : CallSite σ) {functions : List (ExternalFunction σ)}
    (script : Script σ α) :
    ∀ s : CallState σ, ∀ c ∈ site.calls functions script s,
      find? functions c.name = some c.function := by
  induction script with
  | done a =>
    intro s c hc
    cases hc
  | meanwhile change next ih =>
    intro s c hc
    exact ih { s with world := change s.world } c hc
  | call function terms next ih =>
    intro s c hc
    cases hf : find? functions function with
    | none =>
      simp only [calls, hf] at hc
      exact ih none s c hc
    | some f =>
      rw [calls_call hf] at hc
      rcases List.mem_cons.mp hc with rfl | hc
      · unfold find? at hf
        have hname : (f.signature.name == function) = true := by simpa using List.find?_some hf
        show find? functions f.signature.name = some f
        rw [beq_iff_eq.mp hname]
        exact hf
      · exact ih _ _ c hc

/-- **What holds of the calls so far and of the state**, and is kept by every call of an installed
function and every change from outside, holds whenever a call is made. -/
theorem calls_prefix {site : CallSite σ} {functions : List (ExternalFunction σ)}
    {Q : (σ → σ) → Prop} {P : List (Call σ) → CallState σ → Prop}
    (hcall : ∀ earlier c, find? functions c.name = some c.function → P earlier c.state →
      P (earlier ++ [c]) (site.invokeState c.function c.terms c.state))
    (hchange : ∀ earlier s change, Q change → P earlier s →
      P earlier { s with world := change s.world })
    (script : Script σ α) : ∀ earlier s, script.AllChanges Q → P earlier s →
      ∀ before c after, site.calls functions script s = before ++ c :: after →
        P (earlier ++ before) c.state := by
  induction script with
  | done a =>
    intro earlier s _ _ before c after hsplit
    simp [calls] at hsplit
  | meanwhile change next ih =>
    intro earlier s hscript hs before c after hsplit
    exact ih earlier _ hscript.2 (hchange earlier s change hscript.1 hs) before c after hsplit
  | call function terms next ih =>
    intro earlier s hscript hs before c after hsplit
    cases hf : find? functions function with
    | none =>
      simp only [calls, hf] at hsplit
      exact ih none earlier s (hscript none) hs before c after hsplit
    | some f =>
      have hinstalled : find? functions f.signature.name = some f :=
        find?_name_of_mem_calls site (.call function terms next) s ⟨f, terms, s⟩
          (by rw [calls_call hf]; exact .head _)
      rw [calls_call hf] at hsplit
      -- The call is this one, or it comes after this one.
      cases before with
      | nil =>
        obtain ⟨rfl, -⟩ := List.cons.inj hsplit
        rw [List.append_nil]
        exact hs
      | cons b before =>
        obtain ⟨rfl, hrest⟩ := List.cons.inj hsplit
        rw [List.append_cons]
        exact ih _ _ _ (hscript _) (hcall earlier ⟨f, terms, s⟩ hinstalled hs) before c after hrest

/-- Where one function is installed, all calls are calls of it. -/
theorem function_of_mem_calls {site : CallSite σ} {f : ExternalFunction σ} {script : Script σ α}
    {s : CallState σ} {c : Call σ} (hc : c ∈ site.calls [f] script s) : c.function = f :=
  List.mem_singleton.mp (List.mem_of_find?_eq_some (find?_name_of_mem_calls site script s c hc))

/-! ## §4. What functions are run on. -/

/-- The runs of functions during a script: the name of each and its arguments. -/
def executions (site : CallSite σ) (functions : List (ExternalFunction σ)) (script : Script σ α)
    (s : CallState σ) : List (String × List Value) :=
  (site.calls functions script s).flatMap fun c => (c.runs site).map (c.name, ·)

end CallSite

/-- A world beside which functions note what they are run on. -/
abbrev Noted (σ : Type) := σ × List (String × List Value)

/-- The same function, which notes its name and arguments before it runs. -/
def ExternalFunction.noting {σ : Type} (f : ExternalFunction σ) : ExternalFunction (Noted σ) where
  signature := f.signature
  run := fun context args w =>
    let (r, v) := f.run context args w.1
    (r, v, w.2 ++ [(f.signature.name, args)])

/-- The same script beside notes. -/
def Script.noting {σ α : Type} : Script σ α → Script (Noted σ) α
  | .done a => .done a
  | .call function terms next => .call function terms fun r => (next r).noting
  | .meanwhile change next => .meanwhile (fun w => (change w.1, w.2)) next.noting

/-- A state with the notes made so far. -/
def CallState.withNotes {σ : Type} (s : CallState σ) (notes : List (String × List Value)) :
    CallState (Noted σ) := ⟨s.slot, s.world, notes⟩

namespace CallSite

variable {σ α : Type}

/-- The same call site beside notes. -/
def noting (site : CallSite σ) : CallSite (Noted σ) where
  digest := site.digest
  record := fun event w => (site.record event w.1, w.2)

theorem runEncoded_noting (f : ExternalFunction σ) (context : CallContext) (args : List Value)
    (w : Noted σ) :
    runEncoded f.noting context args w
      = ((runEncoded f context args w.1).1, (runEncoded f context args w.1).2,
          w.2 ++ [(f.signature.name, args)]) := by
  rw [runEncoded_eq, runEncoded_eq]
  rfl

theorem carryOut_noting (site : CallSite σ) (f : ExternalFunction σ) (s : CallState σ)
    (notes : List (String × List Value)) (p : Plan) :
    site.noting.carryOut f.noting (s.withNotes notes) p
      = ((site.carryOut f s p).1, (site.carryOut f s p).2.withNotes
          (notes ++ p.runs.map (f.signature.name, ·))) := by
  cases p with
  | refuse e => simp [carryOut, Plan.runs, CallState.withNotes]
  | reuse v => simp [carryOut, Plan.runs, CallState.withNotes, noting]
  | run context args key =>
    show site.noting.carryOut f.noting (s.withNotes notes) (.run context args key) = _
    simp only [carryOut, runEncoded_noting, CallState.withNotes, Plan.runs, List.map_cons,
      List.map_nil]
    cases runEncoded f context args s.world with
    | mk r w => cases r <;> rfl

theorem invoke_noting (site : CallSite σ) (f : ExternalFunction σ) (terms : List Term)
    (s : CallState σ) (notes : List (String × List Value)) :
    site.noting.invoke f.noting terms (s.withNotes notes)
      = (site.invokeAnswer f terms s, (site.invokeState f terms s).withNotes
          (notes ++ (Call.runs site ⟨f, terms, s⟩).map (f.signature.name, ·))) := by
  unfold invokeAnswer invokeState
  rw [invoke_eq_settle, invoke_eq_settle]
  show site.noting.settle (site.noting.carryOut f.noting (s.withNotes notes)
      (plan site.digest f.signature terms s.slot)) = _
  rw [carryOut_noting]
  rcases site.carryOut f s (plan site.digest f.signature terms s.slot) with ⟨_ | _, _⟩ <;> rfl

theorem find?_noting (functions : List (ExternalFunction σ)) (name : String) :
    find? (functions.map ExternalFunction.noting) name
      = (find? functions name).map ExternalFunction.noting := by
  unfold find?
  rw [List.find?_map]
  rfl

/-- **Functions that note what they are run on** change nothing else, and note the executions
of the script. -/
theorem follow_noting (site : CallSite σ) (functions : List (ExternalFunction σ))
    (script : Script σ α) :
    ∀ (s : CallState σ) (notes : List (String × List Value)),
      site.noting.follow (functions.map ExternalFunction.noting) script.noting (s.withNotes notes)
        = ((site.follow functions script s).1, (site.follow functions script s).2.withNotes
            (notes ++ site.executions functions script s)) := by
  induction script with
  | done a =>
    intro s notes
    simp [Script.noting, follow, executions, calls]
  | meanwhile change next ih =>
    intro s notes
    exact ih { s with world := change s.world } notes
  | call function terms next ih =>
    intro s notes
    cases hf : find? functions function with
    | none =>
      have hn : find? (functions.map ExternalFunction.noting) function = none := by
        rw [find?_noting, hf]
        rfl
      simp only [Script.noting, follow, hn, hf, ih, executions, calls]
    | some f =>
      have hn : find? (functions.map ExternalFunction.noting) function = some f.noting := by
        rw [find?_noting, hf]
        rfl
      -- Both scripts go on with the same answer; the notes grow by what this call has run.
      rw [follow_call hf]
      show site.noting.follow _ (.call function terms fun r => (next r).noting) _ = _
      rw [follow_call hn]
      unfold invokeAnswer invokeState
      rw [invoke_noting]
      show site.noting.follow _ (next (site.invokeAnswer f terms s).toOption).noting _ = _
      rw [ih]
      simp only [executions, calls_call hf, List.flatMap_cons, List.append_assoc, Call.name]
      rfl

end CallSite

/-! ## §5. The evaluations of a host. -/

namespace Host

variable {σ α : Type}

/-- The state in which the engine of an idle host sets out. -/
def opening (h : Host σ) (signal : SignalId) (thread : Thread) (w : σ) : CallState σ :=
  ⟨h.slot.opened signal thread, h.site.record .evaluation w⟩

/-- What is left when the engine of an idle host comes to its end. -/
def closing (h : Host σ) (signal : SignalId) (thread : Thread) (script : Script σ α) (w : σ) :
    CallState σ := (h.site.follow h.functions script (h.opening signal thread w)).2

/-- What the engine of an idle host ends with, whatever its calls answered. -/
def engineOutcome (h : Host σ) (signal : SignalId) (thread : Thread) (script : Script σ α)
    (w : σ) : α := (h.site.follow h.functions script (h.opening signal thread w)).1

/-- The calls of an evaluation; none if another evaluation is running. -/
def history (h : Host σ) (signal : SignalId) (thread : Thread) (script : Script σ α) (w : σ) :
    List (Call σ) :=
  match h.slot.active with
  | some _ => []
  | none => h.site.calls h.functions script (h.opening signal thread w)

theorem history_of_isIdle {h : Host σ} (hidle : h.slot.IsIdle) (signal : SignalId)
    (thread : Thread) (script : Script σ α) (w : σ) :
    h.history signal thread script w
      = h.site.calls h.functions script (h.opening signal thread w) := by
  unfold Slot.IsIdle at hidle
  simp only [history, hidle]

/-- An evaluation that makes a call makes the calls of its script. -/
theorem calls_of_history {h : Host σ} {signal : SignalId} {thread : Thread} {script : Script σ α}
    {w : σ} {before after : List (Call σ)} {c : Call σ}
    (hsplit : h.history signal thread script w = before ++ c :: after) :
    h.site.calls h.functions script (h.opening signal thread w) = before ++ c :: after := by
  unfold history at hsplit
  split at hsplit
  · simp at hsplit
  · exact hsplit

/-- **The calls of an evaluation** are made while it runs, and under its signal. -/
theorem context_of_mem_history {h : Host σ} {signal : SignalId} {thread : Thread}
    {script : Script σ α} {w : σ} {c : Call σ} (hc : c ∈ h.history signal thread script w) :
    c.state.slot.context = .ok ⟨h.slot.begun, signal, thread⟩ := by
  unfold history at hc
  split at hc
  · cases hc
  · refine CallSite.calls_invariant
      (P := fun s => s.context = .ok ⟨h.slot.begun, signal, thread⟩) script _ rfl ?_ c hc
    intro d _ hd
    exact (h.site.context_invokeState d.function d.terms d.state).trans hd

theorem find?_name_of_mem_history {h : Host σ} {signal : SignalId} {thread : Thread}
    {script : Script σ α} {w : σ} {c : Call σ} (hc : c ∈ h.history signal thread script w) :
    CallSite.find? h.functions c.name = some c.function := by
  unfold history at hc
  split at hc
  · cases hc
  · exact CallSite.find?_name_of_mem_calls h.site script _ c hc

/-- What an evaluation ends with: the failure that is kept, or else what the engine ended
with. -/
def verdict : Except EvaluationFault α → Option Error → Except Error α
  | .ok a, none => .ok a
  | _, some e => .error e
  | .error fault, none => .error (.evaluation fault)

theorem evaluateScript_result {h : Host σ} (hidle : h.slot.IsIdle) (signal : SignalId)
    (thread : Thread) (script : Script σ (Except EvaluationFault α)) (w : σ) :
    (h.evaluateScript signal thread script w).1
      = verdict (h.engineOutcome signal thread script w)
          (h.closing signal thread script w).slot.failure? := by
  unfold evaluateScript CallSite.evaluate
  rw [Slot.enter_of_isIdle hidle]
  rfl

theorem evaluateScript_world {h : Host σ} (hidle : h.slot.IsIdle) (signal : SignalId)
    (thread : Thread) (script : Script σ (Except EvaluationFault α)) (w : σ) :
    (h.evaluateScript signal thread script w).2.2 = (h.closing signal thread script w).world := by
  unfold evaluateScript CallSite.evaluate
  rw [Slot.enter_of_isIdle hidle]
  rfl

end Host

end PolicyLookup
