/-
  PolicyLookup.Proofs.Host.Companion — an evaluation with memo, and one without.

  A pure function answers by its arguments and leaves the world as it was.  Let some pure
  functions of a host memoize in one evaluation, and not in another one.  Slot and world of the
  two evaluations are then companions: every result that the first one keeps belongs to a call of
  the evaluation, for a pure function it is what the function brings whenever it runs, and for
  the other functions both slots keep the same.

    * `Slot.Companion.brings` — a result that is found is the one that a run would bring.
    * `invoke_companion` — a call has one answer in companions, and leaves companions.
    * `follow_companion` — a script ends alike in companions, after the same calls.
-/

import PolicyLookup.Proofs.Evaluation.Arguments
import PolicyLookup.Proofs.Evaluation.Snapshot
import PolicyLookup.Proofs.Host.Independence

namespace PolicyLookup

/-! ## §1. Memoizing or not. -/

namespace ExternalFunction

variable {σ ν : Type}

/-- The function, memoizing as wanted if its name is chosen. -/
def memoizing (chosen : String → Bool) (memoize : Bool) (f : ExternalFunction σ) :
    ExternalFunction σ :=
  if chosen f.signature.name then { f with signature := { f.signature with memoize := memoize } }
  else f

/-- The function answers by its arguments alone, and leaves what can be seen and the counters
as they were. -/
structure Pure (o : Outlook σ ν) (f : ExternalFunction σ) : Prop where
  answer : ∀ context context' args w w',
    (f.run context args w).1 = (f.run context' args w').1
  view : ∀ signal context args w, o.view signal (f.run context args w).2 = o.view signal w
  counters : ∀ context args w, o.counters (f.run context args w).2 = o.counters w

/-- Whenever the function runs on the arguments, it brings the value, which has a term. -/
def Brings (f : ExternalFunction σ) (args : List Value) (v : Value) : Prop :=
  ∀ context w, ∃ t, (CallSite.runEncoded f context args w).1 = .ok (v, t)

variable {chosen : String → Bool} {memoize : Bool} {f : ExternalFunction σ}

theorem name_memoizing : (f.memoizing chosen memoize).signature.name = f.signature.name := by
  unfold memoizing
  split <;> rfl

theorem memoize_memoizing (h : chosen f.signature.name = true) :
    (f.memoizing chosen memoize).signature.memoize = memoize := by
  unfold memoizing
  rw [if_pos h]

theorem memoizing_of_not_chosen (h : chosen f.signature.name = false) :
    f.memoizing chosen memoize = f := by
  unfold memoizing
  rw [h]
  rfl

theorem arguments_memoizing (terms : List Term) :
    CallSite.arguments (f.memoizing chosen memoize).signature terms
      = CallSite.arguments f.signature terms := by
  unfold memoizing
  split <;> rfl

theorem runEncoded_memoizing :
    CallSite.runEncoded (f.memoizing chosen memoize) = CallSite.runEncoded f := by
  unfold memoizing
  split <;> rfl

theorem brings_memoizing {args : List Value} {v : Value} :
    (f.memoizing chosen memoize).Brings args v ↔ f.Brings args v := by
  unfold Brings
  rw [runEncoded_memoizing]

theorem Pure.memoizing {o : Outlook σ ν} (h : f.Pure o) : (f.memoizing chosen memoize).Pure o := by
  have hrun : (f.memoizing chosen memoize).run = f.run := by
    unfold ExternalFunction.memoizing
    split <;> rfl
  exact ⟨hrun ▸ h.answer, hrun ▸ h.view, hrun ▸ h.counters⟩

end ExternalFunction

namespace CallSite

variable {σ ν : Type}

theorem find?_memoizing (chosen : String → Bool) (memoize : Bool)
    (functions : List (ExternalFunction σ)) (name : String) :
    find? (functions.map (ExternalFunction.memoizing chosen memoize)) name
      = (find? functions name).map (ExternalFunction.memoizing chosen memoize) := by
  unfold find?
  rw [List.find?_map]
  congr 2
  funext f
  show ((f.memoizing chosen memoize).signature.name == name) = _
  rw [ExternalFunction.name_memoizing]

/-- What a pure function brings does not depend on the context and the world. -/
theorem runEncoded_pure {o : Outlook σ ν} {f : ExternalFunction σ} (hpure : f.Pure o)
    (context context' : CallContext) (args : List Value) (w w' : σ) :
    (runEncoded f context args w).1 = (runEncoded f context' args w').1 := by
  rw [runEncoded_eq, runEncoded_eq, hpure.answer context context' args w w']

/-- A value that a pure function has brought once it always brings. -/
theorem brings_of_runEncoded {o : Outlook σ ν} {f : ExternalFunction σ} (hpure : f.Pure o)
    {context : CallContext} {args : List Value} {w : σ} {v : Value} {t : Term}
    (h : (runEncoded f context args w).1 = .ok (v, t)) : f.Brings args v := by
  intro context' u
  refine ⟨t, ?_⟩
  rw [runEncoded_pure hpure context' context args u w, h]

end CallSite

/-! ## §2. Companions. -/

/-- Slots of two evaluations, in the first of which the chosen functions memoize.  The calls are
those of the second evaluation. -/
structure Slot.Companion {σ : Type} (digest : List UInt8 → String) (chosen : String → Bool)
    (calls : List (Call σ)) (signal : SignalId) (s s' : Slot) : Prop where
  context : ∃ i thread, s.context = .ok ⟨i, signal, thread⟩ ∧ s'.context = .ok ⟨i, signal, thread⟩
  failure : s.failure? = s'.failure?
  /-- A result that is kept belongs to a call. -/
  origin : ∀ key v, s.memoized? key = some v → ∃ c ∈ calls, ∃ args, c.arguments = .ok args
    ∧ CallKey.ofCall digest c.name args = .ok key
    ∧ (chosen c.name = true → c.function.Brings args v)
  /-- For the other functions the same is kept. -/
  others : ∀ c ∈ calls, chosen c.name = false → ∀ args key, c.arguments = .ok args →
    CallKey.ofCall digest c.name args = .ok key → s.memoized? key = s'.memoized? key

namespace Slot.Companion

variable {σ : Type} {digest : List UInt8 → String} {chosen : String → Bool}
  {calls : List (Call σ)} {signal : SignalId} {s s' : Slot}

theorem isRunning (h : Companion digest chosen calls signal s s') :
    s.IsRunning ∧ s'.IsRunning := by
  obtain ⟨i, thread, hc, hc'⟩ := h.context
  exact ⟨isRunning_of_context hc, isRunning_of_context hc'⟩

theorem opened (s : Slot) (signal : SignalId) (thread : Thread) :
    Companion digest chosen calls signal (s.opened signal thread) (s.opened signal thread) where
  context := ⟨s.begun, thread, rfl, rfl⟩
  failure := rfl
  origin := nofun
  others := fun _ _ _ _ _ _ _ => rfl

theorem fail (h : Companion digest chosen calls signal s s') (e : Error) :
    Companion digest chosen calls signal (s.fail e) (s'.fail e) where
  context := by
    simp only [context_fail]
    exact h.context
  failure := by rw [failure?_fail h.isRunning.1, failure?_fail h.isRunning.2, h.failure]
  origin := by
    simp only [memoized?_fail]
    exact h.origin
  others := by
    simp only [memoized?_fail]
    exact h.others

variable {c : Call σ} {args : List Value} {key : String} {v : Value}

/-- **A result that is found is the one that a run would bring.**  It belongs to a call with the
same key, and that is a call of the same function with the same arguments. -/
theorem brings (h : Companion digest chosen calls signal s s')
    (hfree : CollisionFree digest calls)
    (hnamed : ∀ c ∈ calls, ∀ d ∈ calls, c.name = d.name → c.function = d.function)
    (hc : c ∈ calls) (hargs : c.arguments = .ok args)
    (hkey : CallKey.ofCall digest c.name args = .ok key) (hchosen : chosen c.name = true)
    (hv : s.memoized? key = some v) : c.function.Brings args v := by
  obtain ⟨d, hd, args', hargs', hkey', hbrings⟩ := h.origin key v hv
  obtain ⟨hname, rfl⟩ := hfree.eq_of_ofCall_eq hd hc hargs' hargs hkey' hkey
  rw [hname] at hbrings
  rw [← hnamed d hd c hc hname]
  exact hbrings hchosen

/-- Both keep a result of a function that is not chosen. -/
theorem memoize_both (h : Companion digest chosen calls signal s s') (hc : c ∈ calls)
    (hargs : c.arguments = .ok args) (hkey : CallKey.ofCall digest c.name args = .ok key)
    (hchosen : chosen c.name = false) (v : Value) :
    Companion digest chosen calls signal (s.memoize key v) (s'.memoize key v) where
  context := by
    simp only [context_memoize]
    exact h.context
  failure := by rw [failure?_memoize, failure?_memoize, h.failure]
  origin := by
    intro k u hu
    rw [memoized?_memoize h.isRunning.1] at hu
    split at hu
    · next hk =>
      refine ⟨c, hc, args, hargs, hk ▸ hkey, fun htrue => ?_⟩
      rw [hchosen] at htrue
      cases htrue
    · exact h.origin k u hu
  others := by
    intro d hd hdchosen args' k hargs' hk
    rw [memoized?_memoize h.isRunning.1, memoized?_memoize h.isRunning.2,
      h.others d hd hdchosen args' k hargs' hk]

/-- Only the first keeps a result of a chosen function. -/
theorem memoize_first (h : Companion digest chosen calls signal s s')
    (hfree : CollisionFree digest calls) (hc : c ∈ calls) (hargs : c.arguments = .ok args)
    (hkey : CallKey.ofCall digest c.name args = .ok key) (hchosen : chosen c.name = true)
    (hbrings : c.function.Brings args v) :
    Companion digest chosen calls signal (s.memoize key v) s' where
  context := by
    simp only [context_memoize]
    exact h.context
  failure := by rw [failure?_memoize, h.failure]
  origin := by
    intro k u hu
    rw [memoized?_memoize h.isRunning.1] at hu
    split at hu
    · next hk =>
      obtain rfl := Option.some.inj hu
      exact ⟨c, hc, args, hargs, hk ▸ hkey, fun _ => hbrings⟩
    · exact h.origin k u hu
  others := by
    intro d hd hdchosen args' k hargs' hk
    -- No other function has this key, or its name would be chosen, too.
    have hne : key ≠ k := by
      rintro rfl
      obtain ⟨hname, -⟩ := hfree.eq_of_ofCall_eq hd hc hargs' hargs hk hkey
      rw [hname, hchosen] at hdchosen
      cases hdchosen
    rw [memoized?_memoize h.isRunning.1, if_neg hne]
    exact h.others d hd hdchosen args' k hargs' hk

end Slot.Companion

/-! ## §3. Two evaluations side by side. -/

/-- Two calls in which the same has been asked and answered. -/
def Call.SameAs {σ : Type} (site : CallSite σ) (c d : Call σ) : Prop :=
  c.name = d.name ∧ c.terms = d.terms ∧ c.answer site = d.answer site

/-- Memo hits cannot be seen. -/
structure Outlook.HidesHits {σ ν : Type} (o : Outlook σ ν) (site : CallSite σ) : Prop where
  view : ∀ signal w, o.view signal (site.record .memoHit w) = o.view signal w
  counters : ∀ w, o.counters (site.record .memoHit w) = o.counters w

namespace CallSite

variable {σ ν α : Type}

/-- States of two evaluations that have come from the world `start`, in the first of which the
chosen functions memoize. -/
structure StateCompanion (site : CallSite σ) (o : Outlook σ ν) (chosen : String → Bool)
    (calls : List (Call σ)) (signal : SignalId) (start : σ) (s s' : CallState σ) : Prop where
  slot : Slot.Companion site.digest chosen calls signal s.slot s'.slot
  world : o.SameStep signal signal start s.world start s'.world

/-- What a call brings in companions: one answer, and companions. -/
structure ResultCompanion (site : CallSite σ) (o : Outlook σ ν) (chosen : String → Bool)
    (calls : List (Call σ)) (signal : SignalId) (start : σ)
    (r r' : Except Error Term × CallState σ) : Prop where
  answer : r.1 = r'.1
  state : StateCompanion site o chosen calls signal start r.2 r'.2

variable {site : CallSite σ} {o : Outlook σ ν} {chosen : String → Bool} {calls : List (Call σ)}
  {signal : SignalId} {start : σ} {functions : List (ExternalFunction σ)} {s s' : CallState σ}
  {f : ExternalFunction σ} {terms : List Term} {args : List Value} {c : Call σ}

/-- A result that is reused instead of a run is what the run brings, and neither the memo hit nor
the run can be seen. -/
theorem carryOut_saved (hhits : o.HidesHits site) (hpure : f.Pure o)
    (h : StateCompanion site o chosen calls signal start s s') {v : Value}
    (hbrings : f.Brings args v) (context : CallContext) (g : ExternalFunction σ) :
    ResultCompanion site o chosen calls signal start (site.carryOut g s (.reuse v))
      (site.carryOut f s' (.run context args none)) := by
  obtain ⟨t, ht⟩ := hbrings context s'.world
  have hworld : (runEncoded f context args s'.world).2 = (f.run context args s'.world).2 := by
    rw [runEncoded_eq]
  simp only [carryOut]
  cases hr : runEncoded f context args s'.world with
  | mk r w =>
    rw [hr] at ht hworld
    obtain rfl : r = .ok (v, t) := ht
    obtain rfl : w = (f.run context args s'.world).2 := hworld
    have hview := hpure.view signal context args s'.world
    have hcounters := hpure.counters context args s'.world
    refine ⟨toTerm_of_runEncoded hr, h.slot, h.world.trans ⟨?_, ?_⟩⟩
    · rw [hhits.view, hview]
      exact h.world.view
    · rw [hhits.counters, hcounters]
      exact .rfl

/-- Two runs with the same context and arguments bring the same and step alike; what they keep
must be kept by companions. -/
theorem carryOut_runs (hfits : o.Fits site functions) (hf : f ∈ functions)
    (h : StateCompanion site o chosen calls signal start s s') (i : Nat) (thread : Thread)
    {key key' : Option String} {g g' : ExternalFunction σ} (hg : runEncoded g = runEncoded f)
    (hg' : runEncoded g' = runEncoded f)
    (hkeep : ∀ v t, (runEncoded f ⟨i, signal, thread⟩ args s.world).1 = .ok (v, t) →
      Slot.Companion site.digest chosen calls signal (s.slot.keep key v) (s'.slot.keep key' v)) :
    ResultCompanion site o chosen calls signal start
      (site.carryOut g s (.run ⟨i, signal, thread⟩ args key))
      (site.carryOut g' s' (.run ⟨i, signal, thread⟩ args key')) := by
  obtain ⟨hanswer, hstep⟩ := runEncoded_twin hfits hf i i thread args h.world.view
  simp only [carryOut, hg, hg']
  cases hr : runEncoded f ⟨i, signal, thread⟩ args s.world with
  | mk r w =>
    cases hr' : runEncoded f ⟨i, signal, thread⟩ args s'.world with
    | mk r' w' =>
      rw [hr, hr'] at hanswer hstep
      rw [hr] at hkeep
      obtain rfl : r = r' := hanswer
      cases r with
      | error e => exact ⟨rfl, h.slot, h.world.trans hstep⟩
      | ok x => exact ⟨rfl, hkeep x.1 x.2 rfl, h.world.trans hstep⟩

/-- Companions find the same for a function that is not chosen, and do the same. -/
theorem carryOut_other (hfits : o.Fits site functions) (hf : f ∈ functions)
    (h : StateCompanion site o chosen calls signal start s s') (hc : c ∈ calls)
    (hname : c.name = f.signature.name) (hcargs : c.arguments = .ok args)
    (hargs : arguments f.signature terms = .ok args) (hchosen : chosen c.name = false) :
    ResultCompanion site o chosen calls signal start
        (site.carryOut f s (plan site.digest f.signature terms s.slot))
        (site.carryOut f s' (plan site.digest f.signature terms s'.slot))
      ∧ (plan site.digest f.signature terms s.slot).runs.Sublist
        (plan site.digest f.signature terms s'.slot).runs := by
  obtain ⟨i, thread, hcontext, hcontext'⟩ := h.slot.context
  obtain ⟨key, hkey⟩ := CallKey.exists_ofCall_of_arguments site.digest f.signature.name hargs
  have hckey : CallKey.ofCall site.digest c.name args = .ok key := hname ▸ hkey
  have hlookup := h.slot.others c hc hchosen args key hcargs hckey
  cases hm : f.signature.memoize with
  | false =>
    rw [plan_without_memo hcontext hargs hm, plan_without_memo hcontext' hargs hm]
    exact ⟨carryOut_runs hfits hf h i thread rfl rfl fun _ _ _ => h.slot, .refl _⟩
  | true =>
    cases hv : s.slot.memoized? key with
    | some v =>
      rw [plan_found hcontext hargs hm hkey hv, plan_found hcontext' hargs hm hkey (hlookup ▸ hv)]
      exact ⟨⟨rfl, h.slot, h.world.trans (hfits.record .memoHit h.world.view)⟩, .refl _⟩
    | none =>
      rw [plan_not_found hcontext hargs hm hkey hv,
        plan_not_found hcontext' hargs hm hkey (hlookup ▸ hv)]
      exact ⟨carryOut_runs hfits hf h i thread rfl rfl fun v _ _ =>
        h.slot.memoize_both hc hcargs hckey hchosen v, .refl _⟩

/-- A chosen function runs in the second evaluation, and in the first one unless its result is
kept. -/
theorem carryOut_chosen (hfits : o.Fits site functions) (hhits : o.HidesHits site)
    (hf : f ∈ functions) (hpure : f.Pure o) (hfree : CollisionFree site.digest calls)
    (hnamed : ∀ c ∈ calls, ∀ d ∈ calls, c.name = d.name → c.function = d.function)
    (h : StateCompanion site o chosen calls signal start s s') (hc : c ∈ calls)
    (hfunction : c.function = f.memoizing chosen false) (hcargs : c.arguments = .ok args)
    (hargs : arguments f.signature terms = .ok args) (hchosen : chosen f.signature.name = true) :
    ResultCompanion site o chosen calls signal start
        (site.carryOut (f.memoizing chosen true) s
          (plan site.digest (f.memoizing chosen true).signature terms s.slot))
        (site.carryOut (f.memoizing chosen false) s'
          (plan site.digest (f.memoizing chosen false).signature terms s'.slot))
      ∧ (plan site.digest (f.memoizing chosen true).signature terms s.slot).runs.Sublist
        (plan site.digest (f.memoizing chosen false).signature terms s'.slot).runs := by
  obtain ⟨i, thread, hcontext, hcontext'⟩ := h.slot.context
  obtain ⟨key, hkey⟩ := CallKey.exists_ofCall_of_arguments site.digest f.signature.name hargs
  have hname : c.name = f.signature.name := by
    unfold Call.name
    rw [hfunction, ExternalFunction.name_memoizing]
  have hckey : CallKey.ofCall site.digest c.name args = .ok key := hname ▸ hkey
  have hcchosen : chosen c.name = true := hname ▸ hchosen
  have hm : (f.memoizing chosen true).signature.memoize = true :=
    ExternalFunction.memoize_memoizing hchosen
  have hm' : (f.memoizing chosen false).signature.memoize = false :=
    ExternalFunction.memoize_memoizing hchosen
  have hfirst : arguments (f.memoizing chosen true).signature terms = .ok args :=
    (ExternalFunction.arguments_memoizing terms).trans hargs
  have hsecond : arguments (f.memoizing chosen false).signature terms = .ok args :=
    (ExternalFunction.arguments_memoizing terms).trans hargs
  have hkey' : CallKey.ofCall site.digest (f.memoizing chosen true).signature.name args
      = .ok key := by rw [ExternalFunction.name_memoizing, hkey]
  rw [plan_without_memo hcontext' hsecond hm']
  cases hv : s.slot.memoized? key with
  | some v =>
    rw [plan_found hcontext hfirst hm hkey' hv]
    have hbrings : c.function.Brings args v :=
      h.slot.brings hfree hnamed hc hcargs hckey hcchosen hv
    rw [hfunction] at hbrings
    exact ⟨carryOut_saved hhits hpure.memoizing h hbrings _ _, List.nil_sublist _⟩
  | none =>
    rw [plan_not_found hcontext hfirst hm hkey' hv]
    refine ⟨carryOut_runs hfits hf h i thread ExternalFunction.runEncoded_memoizing
      ExternalFunction.runEncoded_memoizing ?_, .refl _⟩
    intro v t ht
    have hbrings : c.function.Brings args v := by
      rw [hfunction, ExternalFunction.brings_memoizing]
      exact brings_of_runEncoded hpure ht
    exact h.slot.memoize_first hfree hc hcargs hckey hcchosen hbrings

/-- **A call has one answer in companions, and leaves companions**, whether its function is chosen
or not. -/
theorem invoke_companion (hfits : o.Fits site functions) (hhits : o.HidesHits site)
    (hf : f ∈ functions) (hpure : chosen f.signature.name = true → f.Pure o)
    (hfree : CollisionFree site.digest calls)
    (hnamed : ∀ c ∈ calls, ∀ d ∈ calls, c.name = d.name → c.function = d.function)
    (h : StateCompanion site o chosen calls signal start s s')
    (hc : ⟨f.memoizing chosen false, terms, s'⟩ ∈ calls) :
    site.invokeAnswer (f.memoizing chosen true) terms s
        = site.invokeAnswer (f.memoizing chosen false) terms s'
      ∧ StateCompanion site o chosen calls signal start
        (site.invokeState (f.memoizing chosen true) terms s)
        (site.invokeState (f.memoizing chosen false) terms s')
      ∧ (Call.runs site ⟨f.memoizing chosen true, terms, s⟩).Sublist
        (Call.runs site ⟨f.memoizing chosen false, terms, s'⟩) := by
  obtain ⟨hresult, hruns⟩ : ResultCompanion site o chosen calls signal start
        (site.carryOut (f.memoizing chosen true) s
          (plan site.digest (f.memoizing chosen true).signature terms s.slot))
        (site.carryOut (f.memoizing chosen false) s'
          (plan site.digest (f.memoizing chosen false).signature terms s'.slot))
      ∧ (plan site.digest (f.memoizing chosen true).signature terms s.slot).runs.Sublist
        (plan site.digest (f.memoizing chosen false).signature terms s'.slot).runs := by
    cases hargs : arguments f.signature terms with
    | error e =>
      obtain ⟨i, thread, hcontext, hcontext'⟩ := h.slot.context
      rw [plan_of_arguments_error hcontext
          ((ExternalFunction.arguments_memoizing terms).trans hargs),
        plan_of_arguments_error hcontext'
          ((ExternalFunction.arguments_memoizing terms).trans hargs)]
      exact ⟨⟨rfl, h⟩, .refl _⟩
    | ok args =>
      have hcargs : Call.arguments ⟨f.memoizing chosen false, terms, s'⟩ = .ok args :=
        (ExternalFunction.arguments_memoizing terms).trans hargs
      cases hchosen : chosen f.signature.name with
      | true =>
        exact carryOut_chosen hfits hhits hf (hpure hchosen) hfree hnamed h hc rfl hcargs hargs
          hchosen
      | false =>
        rw [ExternalFunction.memoizing_of_not_chosen hchosen] at hc hcargs ⊢
        rw [ExternalFunction.memoizing_of_not_chosen hchosen]
        exact carryOut_other hfits hf h hc rfl hcargs hargs hchosen
  obtain ⟨hsame, hstate⟩ := invoke_related hresult.answer hresult.state fun e =>
    ⟨h.slot.fail e, hresult.state.world.trans (hfits.record _ hresult.state.world.view)⟩
  exact ⟨hsame, hstate, hruns⟩

/-- **Companions stay companions**: a script ends alike, its calls are answered alike, and in the
first evaluation some runs are left out. -/
theorem follow_companion (hfits : o.Fits site functions) (hhits : o.HidesHits site)
    (hpure : ∀ f ∈ functions, chosen f.signature.name = true → f.Pure o)
    (hfree : CollisionFree site.digest calls)
    (hnamed : ∀ c ∈ calls, ∀ d ∈ calls, c.name = d.name → c.function = d.function)
    (script : Script σ α) :
    let on := functions.map (ExternalFunction.memoizing chosen true)
    let off := functions.map (ExternalFunction.memoizing chosen false)
    ∀ {s s' : CallState σ}, script.Fits o signal signal →
      (∀ c ∈ site.calls off script s', c ∈ calls) →
      StateCompanion site o chosen calls signal start s s' →
        (site.follow on script s).1 = (site.follow off script s').1
          ∧ List.Forall₂ (Call.SameAs site) (site.calls on script s) (site.calls off script s')
          ∧ (site.executions on script s).Sublist (site.executions off script s')
          ∧ StateCompanion site o chosen calls signal start (site.follow on script s).2
              (site.follow off script s').2 := by
  intro on off
  induction script with
  | done a =>
    intro s s' _ _ h
    exact ⟨rfl, .nil, .slnil, h⟩
  | meanwhile change next ih =>
    intro s s' hscript hcalls h
    obtain ⟨hchange, hnext⟩ := hscript
    exact ih hnext hcalls ⟨h.slot, h.world.trans (hchange _ _ h.world.view)⟩
  | call function terms next ih =>
    intro s s' hscript hcalls h
    have hon := find?_memoizing chosen true functions function
    have hoff := find?_memoizing chosen false functions function
    cases hf : find? functions function with
    | none =>
      rw [hf] at hon hoff
      simp only [executions, follow, CallSite.calls, on, off, hon, hoff,
        Option.map_none] at hcalls ⊢
      exact ih none (hscript none) hcalls h
    | some f =>
      rw [hf] at hon hoff
      have hmem := mem_of_find? hf
      simp only [off] at hcalls
      rw [calls_call hoff] at hcalls
      obtain ⟨hanswer, hstate, hruns⟩ := invoke_companion hfits hhits hmem (hpure f hmem) hfree
        hnamed h (hcalls _ (.head _))
      -- The answers are the same, so both scripts go on with the same rest.
      rw [← hanswer] at hcalls
      obtain ⟨hresult, hsame, hexecutions, hend⟩ :=
        ih _ (hscript _) (fun c hc => hcalls c (.tail _ hc)) hstate
      simp only [executions, on, off] at hresult hsame hexecutions hend ⊢
      rw [follow_call hon, follow_call hoff, calls_call hon, calls_call hoff, ← hanswer]
      refine ⟨hresult, .cons ⟨?_, rfl, hanswer⟩ hsame, ?_, hend⟩
      · show (f.memoizing chosen true).signature.name = (f.memoizing chosen false).signature.name
        rw [ExternalFunction.name_memoizing, ExternalFunction.name_memoizing]
      · rw [List.flatMap_cons, List.flatMap_cons]
        refine .append ?_ hexecutions
        simp only [Call.name, ExternalFunction.name_memoizing]
        exact hruns.map _

end CallSite

end PolicyLookup
