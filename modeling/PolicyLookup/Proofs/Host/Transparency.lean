/-
  PolicyLookup.Proofs.Host.Transparency — memoizing pure functions changes nothing that is seen.

  An evaluation in which some pure functions memoize begins as the companion of one in which they
  do not, and ends as its companion.  What companions have in common is all that can be seen of
  an evaluation: its end, its calls with their terms and errors, its first failure, and every
  counter but that of the memo hits.

    * `SameChange.sameApartFromHits` — what has changed alike since the same moment is the same.
    * `evaluateScript_memoizing` — evaluations with and without memo are the same, call by call.
-/

import PolicyLookup.Proofs.Host.Companion

namespace PolicyLookup

/-! ## §1. Counters apart from memo hits. -/

namespace Metrics

/-- The counters without the memo hits. -/
def forgetHits (m : Metrics) : Metrics := { m with memoHits := 0 }

/-- Counters that differ in nothing but the memo hits. -/
structure SameApartFromHits (m m' : Metrics) : Prop where
  storeQueries : m.storeQueries = m'.storeQueries
  storeFailures : m.storeFailures = m'.storeFailures
  documentsReturned : m.documentsReturned = m'.documentsReturned
  evaluations : m.evaluations = m'.evaluations
  callFailures : ∀ category, m.failuresOf category = m'.failuresOf category

theorem SameChange.forgetHits {b a b' a' : Metrics} (h : SameChange b a b' a') :
    SameChange b.forgetHits a.forgetHits b'.forgetHits a'.forgetHits where
  storeQueries := h.storeQueries
  storeFailures := h.storeFailures
  documentsReturned := h.documentsReturned
  memoHits := Eq.refl _
  evaluations := h.evaluations
  callFailures := h.callFailures

/-- What has changed alike since the same moment is the same. -/
theorem SameChange.sameApartFromHits {b a a' : Metrics}
    (h : SameChange b.forgetHits a.forgetHits b.forgetHits a'.forgetHits) :
    a.SameApartFromHits a' where
  storeQueries := Nat.add_right_cancel h.storeQueries
  storeFailures := Nat.add_right_cancel h.storeFailures
  documentsReturned := Nat.add_right_cancel h.documentsReturned
  evaluations := Nat.add_right_cancel h.evaluations
  callFailures := fun category => Nat.add_right_cancel (h.callFailures category)

end Metrics

namespace Outlook

variable {σ ν α : Type} {o : Outlook σ ν} {site : CallSite σ}
  {functions : List (ExternalFunction σ)}

/-- The outlook that does not count memo hits. -/
def forgetHits (o : Outlook σ ν) : Outlook σ ν := ⟨o.view, fun w => (o.counters w).forgetHits⟩

theorem SameStep.forgetHits {signal signal' : SignalId} {w v w' v' : σ}
    (h : o.SameStep signal signal' w v w' v') : o.forgetHits.SameStep signal signal' w v w' v' :=
  ⟨h.view, h.counters.forgetHits⟩

theorem Fits.forgetHits (h : o.Fits site functions) : o.forgetHits.Fits site functions where
  record := fun event hview => (h.record event hview).forgetHits
  answer := h.answer
  step := fun f hf _ _ _ _ i i' thread args hview => (h.step f hf i i' thread args hview).forgetHits

/-- Pure functions go by what can be seen, as they go by nothing but their arguments. -/
theorem Fits.of_pure {chosen : String → Bool}
    (hpure : ∀ f ∈ functions, chosen f.signature.name = true → f.Pure o)
    (h : o.Fits site (functions.filter fun f => !chosen f.signature.name)) :
    o.Fits site functions where
  record := h.record
  answer := by
    intro f hf signal signal' w w' i i' thread args hview
    by_cases hchosen : chosen f.signature.name = true
    · exact (hpure f hf hchosen).answer _ _ _ _ _
    · exact h.answer f (List.mem_filter.mpr ⟨hf, by simpa using hchosen⟩) i i' thread args hview
  step := by
    intro f hf signal signal' w w' i i' thread args hview
    by_cases hchosen : chosen f.signature.name = true
    · have hf' := hpure f hf hchosen
      refine ⟨?_, ?_⟩
      · rw [hf'.view, hf'.view, hview]
      · rw [hf'.counters, hf'.counters]
        exact .rfl
    · exact h.step f (List.mem_filter.mpr ⟨hf, by simpa using hchosen⟩) i i' thread args hview

end Outlook

theorem Script.Fits.forgetHits {σ ν α : Type} {o : Outlook σ ν} {signal signal' : SignalId}
    {script : Script σ α} (h : script.Fits o signal signal') :
    script.Fits o.forgetHits signal signal' := by
  induction script with
  | done a => trivial
  | meanwhile change next ih => exact ⟨fun w w' hview => (h.1 w w' hview).forgetHits, ih h.2⟩
  | call function terms next ih => exact fun r => ih r (h r)

theorem ExternalFunction.Pure.forgetHits {σ ν : Type} {o : Outlook σ ν} {f : ExternalFunction σ}
    (h : f.Pure o) : f.Pure o.forgetHits where
  answer := h.answer
  view := h.view
  counters := fun context args w => congrArg Metrics.forgetHits (h.counters context args w)

/-! ## §2. Hosts with and without memo. -/

namespace Host

variable {σ ν α : Type}

/-- The host whose functions of chosen names memoize as wanted. -/
def memoizing (h : Host σ) (chosen : String → Bool) (memoize : Bool) : Host σ :=
  { h with functions := h.functions.map (.memoizing chosen memoize) }

/-- **Memoizing pure functions changes nothing but memo hits and the number of runs.**  Let some
pure functions of a host memoize, or not, while the other functions and what happens outside go
by what can be seen of the world, memo hits not being seen.  With a digest that confuses no two
calls of the evaluation, both evaluations end alike, make the same calls with the same terms or
errors, keep the same first failure, and leave the same counters but for the memo hits; with memo
some runs are left out.  No call fails for want of a key. -/
theorem evaluateScript_memoizing {h : Host σ} (hidle : h.slot.IsIdle) {o : Outlook σ ν}
    {chosen : String → Bool}
    (hpure : ∀ f ∈ h.functions, chosen f.signature.name = true → f.Pure o)
    (hfits : o.Fits h.site (h.functions.filter fun f => !chosen f.signature.name))
    (hhits : o.forgetHits.HidesHits h.site) {signal : SignalId} (thread : Thread)
    {script : Script σ (Except EvaluationFault α)} (hscript : script.Fits o signal signal) (w : σ)
    (hfree : CollisionFree h.site.digest
      ((h.memoizing chosen false).history signal thread script w)) :
    let on := h.memoizing chosen true
    let off := h.memoizing chosen false
    (on.evaluateScript signal thread script w).1 = (off.evaluateScript signal thread script w).1
      ∧ List.Forall₂ (Call.SameAs h.site) (on.history signal thread script w)
          (off.history signal thread script w)
      ∧ (on.closing signal thread script w).slot.failure?
          = (off.closing signal thread script w).slot.failure?
      ∧ (o.counters (on.evaluateScript signal thread script w).2.2).SameApartFromHits
          (o.counters (off.evaluateScript signal thread script w).2.2)
      ∧ (on.executions signal thread script w).Sublist (off.executions signal thread script w)
      ∧ ∀ (f : Signature) (terms : List Term) (args : List Value),
          CallSite.arguments f terms = .ok args →
            ∃ key, CallKey.ofCall h.site.digest f.name args = .ok key := by
  intro on off
  have hon : on.slot.IsIdle := hidle
  have hoff : off.slot.IsIdle := hidle
  have hall := (hfits.of_pure hpure).forgetHits
  -- Calls under one name are of the function that is installed under it.
  have hnamed : ∀ c ∈ off.history signal thread script w,
      ∀ d ∈ off.history signal thread script w, c.name = d.name → c.function = d.function := by
    rw [history_of_isIdle hoff]
    intro c hc d hd hname
    have hfc := CallSite.find?_name_of_mem_calls _ _ _ c hc
    have hfd := CallSite.find?_name_of_mem_calls _ _ _ d hd
    rw [hname, hfd] at hfc
    exact (Option.some.inj hfc).symm
  have hstart : CallSite.StateCompanion h.site o.forgetHits chosen
      (off.history signal thread script w) signal w (on.opening signal thread w)
      (off.opening signal thread w) :=
    ⟨.opened h.slot signal thread, hall.record .evaluation rfl⟩
  obtain ⟨hresult, hsame, hexecutions, hend⟩ := CallSite.follow_companion hall hhits
    (fun f hf hchosen => (hpure f hf hchosen).forgetHits) hfree hnamed script hscript.forgetHits
    (fun c hc => by rw [history_of_isIdle hoff]; exact hc) hstart
  have hfailure : (on.closing signal thread script w).slot.failure?
      = (off.closing signal thread script w).slot.failure? := hend.slot.failure
  refine ⟨?_, ?_, hfailure, ?_, ?_, fun f terms args hargs =>
    CallKey.exists_ofCall_of_arguments h.site.digest f.name hargs⟩
  · rw [evaluateScript_result hon, evaluateScript_result hoff, hfailure]
    exact congrArg (verdict · _) hresult
  · rw [history_of_isIdle hon, history_of_isIdle hoff]
    exact hsame
  · rw [evaluateScript_world hon, evaluateScript_world hoff]
    exact hend.world.counters.sameApartFromHits
  · unfold executions
    rw [history_of_isIdle hon, history_of_isIdle hoff]
    exact hexecutions

/-- In the world of stores and connectors memo hits are counted, and otherwise not seen. -/
theorem hidesHits_outlook (metrics i : Nat) :
    (World.outlook metrics).forgetHits.HidesHits (World.callSite i) where
  view := fun signal w => World.view_record w i .memoHit
  counters := by
    intro w
    show Metrics.forgetHits (((w.record i .memoHit).metrics.get? metrics).getD .zero) = _
    rw [World.get?_record]
    split
    · show _ = Metrics.forgetHits ((w.metrics.get? metrics).getD .zero)
      cases w.metrics.get? metrics <;> rfl
    · rfl

/-- A function that returns its arguments, but has nothing to say about nothing. -/
def echo : ExternalFunction World where
  signature := ⟨"echo", [.any], .any, .deterministic, true⟩
  run := fun _ args w =>
    match args with
    | [.null] => (.error (.internal "nothing"), w)
    | args => (.ok (.seq args), w)

theorem pure_echo (o : Outlook World ν) : echo.Pure o where
  answer := by
    intro _ _ args _ _
    unfold echo
    simp only
    split <;> rfl
  view := by
    intro _ _ args _
    unfold echo
    simp only
    split <;> rfl
  counters := by
    intro _ args _
    unfold echo
    simp only
    split <;> rfl

/-- A host that echoes, and takes queries. -/
def echoing : Host World where
  site := World.callSite 0
  functions := [echo, (World.access 0 0).function default]
  engine := .empty
  slot := .empty

/-- An engine that asks the same twice, then something that has no answer. -/
def repeating : Script World (Except EvaluationFault Nat) :=
  .call "echo" [.str "a"] fun _ => .call "echo" [.str "a"] fun _ => .call "echo" [.null] fun _ =>
    .done (.ok 7)

theorem evaluateScript_memoizing_echo :
    let on := echoing.memoizing (· == "echo") true
    let off := echoing.memoizing (· == "echo") false
    (on.evaluateScript 0 .plain repeating (stocked 0 0 [])).1
        = (off.evaluateScript 0 .plain repeating (stocked 0 0 [])).1
      ∧ (on.executions 0 .plain repeating (stocked 0 0 [])).length = 2
      ∧ (off.executions 0 .plain repeating (stocked 0 0 [])).length = 3 := by
  intro on off
  have hpure : ∀ f ∈ echoing.functions, (f.signature.name == "echo") = true →
      f.Pure (World.outlook 0) := by
    intro f hf hname
    rcases List.mem_cons.mp hf with rfl | hf
    · exact pure_echo _
    · obtain rfl := List.mem_singleton.mp hf
      exact absurd hname (by decide)
  have hfits : (World.outlook 0).Fits echoing.site
      (echoing.functions.filter fun f => !(f.signature.name == "echo")) :=
    World.outlook_fits_query 0 0 0 default
  -- Two different calls are made, and their digests are computed.
  have hcalls : ∀ c ∈ off.history 0 .plain repeating (stocked 0 0 []), c.name = "echo"
      ∧ (c.arguments = .ok [.str "a"] ∨ c.arguments = .ok [.null]) := by
    intro c hc
    rcases List.mem_cons.mp hc with rfl | hc
    · exact ⟨rfl, Or.inl rfl⟩
    rcases List.mem_cons.mp hc with rfl | hc
    · exact ⟨rfl, Or.inl rfl⟩
    obtain rfl := List.mem_singleton.mp hc
    exact ⟨rfl, Or.inr rfl⟩
  have hfree : CollisionFree echoing.site.digest
      (off.history 0 .plain repeating (stocked 0 0 [])) :=
    .of_two hcalls (by decide +kernel)
  have hscript : repeating.Fits (World.outlook 0) 0 0 := fun _ _ _ => trivial
  obtain ⟨hresult, -⟩ := evaluateScript_memoizing (h := echoing) rfl hpure hfits
    (hidesHits_outlook 0 0) .plain hscript (stocked 0 0 []) hfree
  exact ⟨hresult, by decide +kernel, by decide +kernel⟩

end Host

end PolicyLookup
