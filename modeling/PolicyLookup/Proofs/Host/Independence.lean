/-
  PolicyLookup.Proofs.Host.Independence — evaluations do not see the evaluations before them.

  Two running evaluations are twins if they have the same results and the same failure in their
  slots; they may differ in their identities and in their signals.  The calls of twins have twin
  plans, and functions that go by what can be seen answer them alike, so that twins stay twins
  to the end of a script (`follow_twin`).  An evaluation begins with nothing in its slot, and
  therefore has a twin on a host that has never evaluated anything.
-/

import PolicyLookup.Proofs.Host.Operations
import PolicyLookup.Proofs.Policy.Quiet
import PolicyLookup.Proofs.Session.Outlook

namespace PolicyLookup

/-! ## §1. Twins. -/

/-- Two slots whose evaluations differ in identity and signal only. -/
def Slot.Twin (signal signal' : SignalId) (s s' : Slot) : Prop :=
  ∃ i i' thread memo failure, s.active = some ⟨⟨i, signal, thread⟩, memo, failure⟩
    ∧ s'.active = some ⟨⟨i', signal', thread⟩, memo, failure⟩

/-- Two plans that differ in the identity and the signal of the evaluation only. -/
inductive Plan.Twin (signal signal' : SignalId) : Plan → Plan → Prop where
  | refuse (e : Error) : Twin signal signal' (.refuse e) (.refuse e)
  | reuse (v : Value) : Twin signal signal' (.reuse v) (.reuse v)
  | run (i i' : Nat) (thread : Thread) (args : List Value) (key : Option String) :
    Twin signal signal' (.run ⟨i, signal, thread⟩ args key) (.run ⟨i', signal', thread⟩ args key)

theorem Plan.Twin.runs_eq {signal signal' : SignalId} {p p' : Plan}
    (h : Plan.Twin signal signal' p p') : p.runs = p'.runs := by
  cases h <;> rfl

namespace Slot

variable {signal signal' : SignalId} {s s' : Slot}

theorem Twin.context (h : Twin signal signal' s s') :
    ∃ i i' thread, s.context = .ok ⟨i, signal, thread⟩ ∧
      s'.context = .ok ⟨i', signal', thread⟩ := by
  obtain ⟨i, i', thread, memo, failure, hs, hs'⟩ := h
  exact ⟨i, i', thread, by simp only [Slot.context, hs], by simp only [Slot.context, hs']⟩

theorem Twin.memoized?_eq (h : Twin signal signal' s s') (key : String) :
    s.memoized? key = s'.memoized? key := by
  obtain ⟨i, i', thread, memo, failure, hs, hs'⟩ := h
  simp only [memoized?, hs, hs', Option.bind_some]

theorem Twin.failure?_eq (h : Twin signal signal' s s') : s.failure? = s'.failure? := by
  obtain ⟨i, i', thread, memo, failure, hs, hs'⟩ := h
  simp only [failure?, hs, hs', Option.bind_some]

theorem Twin.keep (h : Twin signal signal' s s') (key : Option String) (v : Value) :
    Twin signal signal' (s.keep key v) (s'.keep key v) := by
  cases key with
  | none => exact h
  | some key =>
    obtain ⟨i, i', thread, memo, failure, hs, hs'⟩ := h
    refine ⟨i, i', thread, (key, v) :: memo.filter fun e => !(e.1 == key), failure, ?_, ?_⟩
    · simp only [Slot.keep, memoize, hs, Option.map_some]
    · simp only [Slot.keep, memoize, hs', Option.map_some]

theorem Twin.fail (h : Twin signal signal' s s') (e : Error) :
    Twin signal signal' (s.fail e) (s'.fail e) := by
  obtain ⟨i, i', thread, memo, failure, hs, hs'⟩ := h
  exact ⟨i, i', thread, memo, _, by simp only [Slot.fail, hs, Option.map_some]; rfl,
    by simp only [Slot.fail, hs', Option.map_some]⟩

/-- Evaluations begin as twins. -/
theorem twin_opened (s s' : Slot) (signal signal' : SignalId) (thread : Thread) :
    Twin signal signal' (s.opened signal thread) (s'.opened signal' thread) :=
  ⟨s.begun, s'.begun, thread, [], none, rfl, rfl⟩

end Slot

namespace CallSite

variable {σ ν α : Type} {signal signal' : SignalId} {o : Outlook σ ν}

/-- In twin slots a call has twin plans. -/
theorem plan_twin (digest : List UInt8 → String) (f : Signature) (terms : List Term)
    {s s' : Slot} (h : Slot.Twin signal signal' s s') :
    Plan.Twin signal signal' (plan digest f terms s) (plan digest f terms s') := by
  obtain ⟨i, i', thread, hc, hc'⟩ := h.context
  unfold plan
  rw [hc, hc']
  cases arguments f terms with
  | error e => exact .refuse e
  | ok args =>
    -- Both have the same arguments, hence the same key, and the same result under it if any.
    simp only [planOf, ← h.memoized?_eq]
    split
    · cases CallKey.ofCall digest f.name args with
      | error e => exact .refuse e
      | ok key =>
        cases hm : s.memoized? key with
        | some v => simp only [hm]; exact .reuse v
        | none => simp only [hm]; exact .run i i' thread args (some key)
    · exact .run i i' thread args none

/-! ## §2. Two runs side by side. -/

/-- Two states in which the same has happened since the worlds `start` and `start'`. -/
structure StateTwin (o : Outlook σ ν) (signal signal' : SignalId) (start start' : σ)
    (s s' : CallState σ) : Prop where
  slot : Slot.Twin signal signal' s.slot s'.slot
  world : o.SameStep signal signal' start s.world start' s'.world

variable {start start' : σ} {site : CallSite σ} {functions : List (ExternalFunction σ)}

theorem runEncoded_twin (hfits : o.Fits site functions) {f : ExternalFunction σ}
    (hf : f ∈ functions) (i i' : Nat) (thread : Thread) (args : List Value) {w w' : σ}
    (h : o.view signal w = o.view signal' w') :
    (runEncoded f ⟨i, signal, thread⟩ args w).1 = (runEncoded f ⟨i', signal', thread⟩ args w').1
      ∧ o.SameStep signal signal' w (runEncoded f ⟨i, signal, thread⟩ args w).2
          w' (runEncoded f ⟨i', signal', thread⟩ args w').2 := by
  rw [runEncoded_eq, runEncoded_eq, hfits.answer f hf i i' thread args h]
  exact ⟨rfl, hfits.step f hf i i' thread args h⟩

/-- Twin plans have the same outcome. -/
theorem carryOut_twin (hfits : o.Fits site functions) {f : ExternalFunction σ}
    (hf : f ∈ functions) {s s' : CallState σ} (h : StateTwin o signal signal' start start' s s')
    {p p' : Plan} (hp : Plan.Twin signal signal' p p') :
    (site.carryOut f s p).1 = (site.carryOut f s' p').1
      ∧ StateTwin o signal signal' start start' (site.carryOut f s p).2
          (site.carryOut f s' p').2 := by
  cases hp with
  | refuse e => exact ⟨rfl, h⟩
  | reuse v =>
    exact ⟨rfl, h.slot, h.world.trans (hfits.record .memoHit h.world.view)⟩
  | run i i' thread args key =>
    -- The contexts differ in what the function cannot see, so both runs bring the same.
    obtain ⟨hanswer, hstep⟩ := runEncoded_twin hfits hf i i' thread args h.world.view
    simp only [carryOut]
    cases hr : runEncoded f ⟨i, signal, thread⟩ args s.world with
    | mk r v =>
      cases hr' : runEncoded f ⟨i', signal', thread⟩ args s'.world with
      | mk r' v' =>
        rw [hr, hr'] at hanswer hstep
        simp only at hanswer hstep
        subst hanswer
        cases r with
        | error e => exact ⟨rfl, h.slot, h.world.trans hstep⟩
        | ok x => exact ⟨rfl, h.slot.keep key x.1, h.world.trans hstep⟩

/-- A call of twins has one answer, and leaves twins. -/
theorem invoke_twin (hfits : o.Fits site functions) {f : ExternalFunction σ}
    (hf : f ∈ functions) (terms : List Term) {s s' : CallState σ}
    (h : StateTwin o signal signal' start start' s s') :
    site.invokeAnswer f terms s = site.invokeAnswer f terms s'
      ∧ StateTwin o signal signal' start start' (site.invokeState f terms s)
          (site.invokeState f terms s') := by
  have hplan := plan_twin site.digest f.signature terms h.slot
  obtain ⟨hanswer, hstate⟩ := carryOut_twin hfits hf h hplan
  exact invoke_related hanswer hstate fun e =>
    ⟨h.slot.fail e, hstate.world.trans (hfits.record _ hstate.world.view)⟩

theorem mem_of_find? {name : String} {f : ExternalFunction σ}
    (h : find? functions name = some f) : f ∈ functions := by
  unfold find? at h
  exact List.mem_of_find?_eq_some h

/-- **Twins stay twins**: a script ends alike, runs the same functions on the same arguments, and
leaves twins. -/
theorem follow_twin (hfits : o.Fits site functions) (script : Script σ α) :
    ∀ {s s' : CallState σ}, script.Fits o signal signal' →
      StateTwin o signal signal' start start' s s' →
      (site.follow functions script s).1 = (site.follow functions script s').1
        ∧ site.executions functions script s = site.executions functions script s'
        ∧ StateTwin o signal signal' start start' (site.follow functions script s).2
            (site.follow functions script s').2 := by
  induction script with
  | done a =>
    intro s s' _ h
    exact ⟨rfl, rfl, h⟩
  | meanwhile change next ih =>
    intro s s' hscript h
    obtain ⟨hchange, hnext⟩ := hscript
    exact ih hnext ⟨h.slot, h.world.trans (hchange _ _ h.world.view)⟩
  | call function terms next ih =>
    intro s s' hscript h
    cases hf : find? functions function with
    | none =>
      simp only [follow, executions, calls, hf]
      exact ih none (hscript none) h
    | some f =>
      obtain ⟨hanswer, hstate⟩ := invoke_twin hfits (mem_of_find? hf) terms h
      have hruns : Call.runs site ⟨f, terms, s⟩ = Call.runs site ⟨f, terms, s'⟩ :=
        (plan_twin site.digest f.signature terms h.slot).runs_eq
      rw [follow_call hf, follow_call hf, hanswer]
      -- The answers are the same, so both scripts go on with the same rest.
      obtain ⟨hresult, hexecutions, htwin⟩ := ih _ (hscript _) hstate
      refine ⟨hresult, ?_, htwin⟩
      unfold executions at hexecutions ⊢
      rw [calls_call hf, calls_call hf, List.flatMap_cons, List.flatMap_cons, hruns, hanswer,
        hexecutions]
      rfl

end CallSite

/-! ## §3. Hosts with and without a past. -/

namespace Host

variable {σ ν α : Type}

/-- The runs of functions during an evaluation. -/
def executions (h : Host σ) (signal : SignalId) (thread : Thread) (script : Script σ α) (w : σ) :
    List (String × List Value) :=
  (h.history signal thread script w).flatMap fun c => (c.runs h.site).map (c.name, ·)

/-- Idle hosts with the same functions evaluate a script alike, whatever is in their slots. -/
theorem evaluateScript_twin {h : Host σ} {s s' : Slot} {o : Outlook σ ν}
    {signal signal' : SignalId} (hs : s.IsIdle) (hs' : s'.IsIdle)
    (hfits : o.Fits h.site h.functions) (thread : Thread)
    {script : Script σ (Except EvaluationFault α)} (hscript : script.Fits o signal signal')
    {w w' : σ} (hworld : o.view signal w = o.view signal' w') :
    ((h.withSlot s).evaluateScript signal thread script w).1
        = ((h.withSlot s').evaluateScript signal' thread script w').1
      ∧ (h.withSlot s).executions signal thread script w
        = (h.withSlot s').executions signal' thread script w'
      ∧ o.SameStep signal signal' w ((h.withSlot s).evaluateScript signal thread script w).2.2
          w' ((h.withSlot s').evaluateScript signal' thread script w').2.2 := by
  -- Nothing of `s` and `s'` but the count of evaluations gets into the opened slots.
  have hstart : CallSite.StateTwin o signal signal' w w'
      ((h.withSlot s).opening signal thread w) ((h.withSlot s').opening signal' thread w') :=
    ⟨Slot.twin_opened s s' signal signal' thread, hfits.record .evaluation hworld⟩
  obtain ⟨hresult, hexecutions, hend⟩ := CallSite.follow_twin hfits script hscript hstart
  refine ⟨?_, ?_, ?_⟩
  · rw [evaluateScript_result hs, evaluateScript_result hs']
    have hfailure : ((h.withSlot s).closing signal thread script w).slot.failure?
        = ((h.withSlot s').closing signal' thread script w').slot.failure? :=
      hend.slot.failure?_eq
    rw [hfailure]
    exact congrArg (verdict · _) hresult
  · unfold executions
    rw [history_of_isIdle hs, history_of_isIdle hs']
    exact hexecutions
  · rw [evaluateScript_world hs, evaluateScript_world hs']
    exact hend.world

/-- **No evaluation sees the evaluations before it.**  Take a host that was made and used by any
operations, evaluations among them, and the host that the same registrations, policies, data and
inputs make without a single evaluation.  Let the engine go by what these hold and by the
answers of the functions, and the functions by what they can see of the world.  Then in worlds
that look alike an evaluation has the same result on both hosts, runs the same functions on the
same arguments in the same order, and changes every counter by the same amount. -/
theorem evaluateScript_independent_of_history {site : CallSite σ} {ops : List (Operation σ)}
    {o : Outlook σ ν} (hfunctions : o.Fits site ((Host.new site).performAll ops).functions)
    (engine : Policy.Engine → Script σ (Except EvaluationFault α)) {signal signal' : SignalId}
    (hengine : ∀ e, (engine e).Fits o signal signal') {w w' : σ}
    (hworld : o.view signal w = o.view signal' w') (thread : Thread) :
    let used := (Host.new site).performAll ops
    let fresh := (Host.new site).performAll (preparations ops)
    (used.evaluateScript signal thread (engine used.engine) w).1
        = (fresh.evaluateScript signal' thread (engine fresh.engine) w').1
      ∧ used.executions signal thread (engine used.engine) w
        = fresh.executions signal' thread (engine fresh.engine) w'
      ∧ Metrics.SameChange (o.counters w)
          (o.counters (used.evaluateScript signal thread (engine used.engine) w).2.2)
          (o.counters w')
          (o.counters (fresh.evaluateScript signal' thread (engine fresh.engine) w').2.2) := by
  intro used fresh
  have husedIdle : used.slot.IsIdle := isIdle_performAll (h := .new site) rfl ops
  have hfreshIdle : fresh.slot.IsIdle :=
    isIdle_performAll (h := .new site) rfl (preparations ops)
  -- The used host is the fresh one with another slot, and both slots are idle.
  obtain ⟨s, hused⟩ := performAll_eq_prepared (.new site) ops
  have hsame : used = fresh.withSlot s := hused
  have hfits : o.Fits fresh.site fresh.functions := by
    have hsite : fresh.site = site := site_performAll (.new site) (preparations ops)
    rw [hsite]
    rw [hused] at hfunctions
    exact hfunctions
  rw [hsame] at husedIdle ⊢
  obtain ⟨hresult, hexecutions, hstep⟩ :=
    evaluateScript_twin husedIdle hfreshIdle hfits thread (hengine fresh.engine) hworld
  exact ⟨hresult, hexecutions, hstep.counters⟩

/-! ## §4. A host with a past. -/

/-- What an engine does for a query is quiet. -/
theorem quiet_queryScript (engine : Policy.Engine) (query : Policy.Expr) :
    (queryScript engine query : Script σ (Except EvaluationFault Term)).Quiet :=
  (engine.quiet_evaluate query).bind fun _ => trivial

/-- A new host takes a function whose declaration is valid. -/
theorem functions_register_new (site : CallSite σ) {f : ExternalFunction σ}
    (hvalid : f.signature.validate = .ok ()) : ((Host.new site).register f).2.functions = [f] := by
  have harity : ¬ Signature.maxArity < f.signature.arity := by
    intro h
    unfold Signature.validate at hvalid
    simp only [h, if_true] at hvalid
    split at hvalid <;> cases hvalid
  simp only [register, hvalid, harity, Host.new, List.any_nil, Bool.false_eq_true, if_false]
  rfl

theorem validate_query : Query.signature.validate = .ok () := by
  have hname : Signature.isName Query.signature.name = true := by decide +kernel
  have harity : ¬ Signature.maxArity < Query.signature.arity := by decide
  simp only [Signature.validate, hname, harity, Bool.not_true, Bool.false_eq_true, if_false]

/-- A world with a connection to a store in memory, where some signals have fired and some
evaluations have been counted. -/
def stocked (clock evaluations : Nat) (fired : List SignalId) : World :=
  { World.start fun _ => none with
    clock := clock
    signals := ⟨0, fired, []⟩
    stores := ⟨[⟨MemoryStore.empty.insert "shop" "users" [[("id", .int64 1)]], []⟩]⟩
    connectors := ⟨[⟨some ⟨.memory 0, "shop"⟩⟩]⟩
    metrics := ⟨[{ Metrics.zero with evaluations := evaluations }]⟩ }

/-- An engine that asks for a user and gives up without one. -/
def inquiry : Script World (Except EvaluationFault Term) :=
  .call "mongodb.query" [.str "users", .obj [(.str "id", .num 1)]] fun
    | some t => .done (.ok t)
    | none => .done (.error .engine)

/-- Takes up queries, then evaluates under a signal that has fired, then under one that has
not. -/
def inquired : List (Operation World) :=
  [.register ((World.access 0 0).function default),
    .evaluate 0 .plain inquiry (stocked 7 3 [0]),
    .evaluate 1 .plain inquiry (stocked 8 4 [0])]

theorem functions_inquired (site : CallSite World) :
    ((Host.new site).performAll inquired).functions = [(World.access 0 0).function default] := by
  obtain ⟨s, hs⟩ := performAll_eq_prepared (.new site) inquired
  have hprepared : preparations inquired = [.register ((World.access 0 0).function default)] :=
    rfl
  rw [hs, hprepared]
  simp only [withSlot, performAll, List.foldl_cons, List.foldl_nil, perform]
  exact functions_register_new site validate_query

/-- A query for a user. -/
def userQuery : Policy.Expr :=
  .call "mongodb.query" [.str "users", .obj [(.str "id", .num "1" 1)]]

theorem evaluateScript_independent_of_history_inquired :
    let used := (Host.new (World.callSite 0)).performAll inquired
    let fresh := (Host.new (World.callSite 0)).performAll (preparations inquired)
    (used.evaluate 2 .plain userQuery (stocked 40 5 [0])).1
        = (fresh.evaluate 0 .plain userQuery (stocked 0 0 [])).1
      ∧ used.executions 2 .plain (queryScript used.engine userQuery) (stocked 40 5 [0])
        = fresh.executions 0 .plain (queryScript fresh.engine userQuery) (stocked 0 0 []) := by
  have hfunctions : (World.outlook 0).Fits (World.callSite 0)
      ((Host.new (World.callSite 0)).performAll inquired).functions := by
    rw [functions_inquired]
    exact World.outlook_fits_query 0 0 0 default
  have hworld : (World.outlook 0).view 2 (stocked 40 5 [0])
      = (World.outlook 0).view 0 (stocked 0 0 []) := rfl
  have hengine : ∀ e : Policy.Engine, (queryScript e userQuery).Fits (World.outlook 0) 2 0 :=
    fun e => (quiet_queryScript e userQuery).fits _ 2 0
  obtain ⟨hresult, hexecutions, -⟩ := evaluateScript_independent_of_history hfunctions
    (fun e => queryScript e userQuery) hengine hworld .plain
  exact ⟨hresult, hexecutions⟩

end Host

end PolicyLookup
