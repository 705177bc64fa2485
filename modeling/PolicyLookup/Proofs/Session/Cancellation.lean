/-
  PolicyLookup.Proofs.Session.Cancellation — nothing reaches a store after the signal has fired.

  A signal that has fired stays fired: queries only let time pass, which fires more signals, and
  reports leave the signals alone.  A query under such a signal is refused by the first of its
  preconditions that does not hold, the last of which is the signal.  The memo is looked at before
  that.  So from the moment at which the signal of an evaluation has fired its queries either repeat
  an earlier answer or fail, and none of them sends a find.

    * `staysFired_function`, `staysFired_invokeState` — fired signals stay fired.
    * `call_of_hasFired` — the error of a query whose signal has fired.
    * `unsent_of_hasFired`, `answer_of_hasFired`, `succeeds_iff_repeats` — a query of an evaluation.
    * `queries_after_cancellation` — the main result.
-/

import PolicyLookup.Proofs.Evaluation.Earlier
import PolicyLookup.Proofs.Session.Refusal

namespace PolicyLookup

/-! ## §1. Signals that have fired. -/

namespace World

/-- A step leaves a signal that has fired as it is. -/
def StaysFired (signal : SignalId) (step : World → World) : Prop :=
  ∀ w, w.signals.hasFired signal = true → (step w).signals.hasFired signal = true

theorem hasFired_ring {s : Signals} {signal : SignalId} (h : s.hasFired signal = true) (now : Nat) :
    (s.ring now).hasFired signal = true := by
  unfold Signals.hasFired Signals.ring at *
  rw [List.contains_iff_mem] at h ⊢
  exact List.mem_append_right _ h

/-- What a query puts down leaves the signals as they are, except that time passes. -/
theorem signals_settle (w : World) (connector i : Nat) (request : Option FindRequest)
    (event : Option Metrics.Event) (elapsed : Nat) :
    (w.settle connector i request event elapsed).signals = w.signals.ring (w.clock + elapsed) := by
  have hreceive : ∀ r ref, (w.receive r ref).signals = w.signals ∧
      (w.receive r ref).clock = w.clock := by
    intro r ref
    cases ref <;> exact ⟨rfl, rfl⟩
  unfold settle
  cases request with
  | none => cases event <;> rfl
  | some r =>
    cases w.connection connector with
    | none => cases event <;> rfl
    | some c =>
      obtain ⟨hsignals, hclock⟩ := hreceive r c.store
      cases event <;> simp [pass, record, hsignals, hclock]

/-- A query that has sent nothing leaves the stores as they are. -/
theorem stores_settle (w : World) (connector i : Nat) (event : Option Metrics.Event)
    (elapsed : Nat) : (w.settle connector i none event elapsed).stores = w.stores ∧
      (w.settle connector i none event elapsed).sent = w.sent := by
  unfold settle
  cases event <;> exact ⟨rfl, rfl⟩

end World

theorem Wiring.staysFired_function (g : Wiring) (signal : SignalId) (context : CallContext)
    (args : List Value) : World.StaysFired signal fun w => (g.function.run context args w).2 := by
  intro w hfired
  show (w.settle g.connector g.bridge _ _ _).signals.hasFired signal = true
  rw [World.signals_settle]
  exact World.hasFired_ring hfired _

/-- A call of a function that leaves fired signals as they are does so too. -/
theorem CallSite.staysFired_invokeState {g : Wiring} {c : Call World} {signal : SignalId}
    (hfunction : ∀ context args,
      World.StaysFired signal fun w => (c.function.run context args w).2)
    (hfired : c.state.world.signals.hasFired signal = true) :
    (g.site.invokeState c.function c.terms c.state).world.signals.hasFired signal = true := by
  have hcarried : (g.site.carryOut c.function c.state (c.plan g)).2.world.signals.hasFired signal
      = true := by
    cases c.plan g with
    | refuse e => exact hfired
    | reuse v => exact hfired
    | run context args key =>
      rw [world_carryOut_run]
      exact hfunction context args c.state.world hfired
  rw [world_invokeState]
  -- To count a failure changes no signal.
  cases c.failure? g.site <;> exact hcarried

/-! ## §2. Queries under a signal that has fired. -/

namespace Query

/-- A query whose signal has fired is refused. -/
theorem call_of_hasFired {s : Setting} (hfired : s.hasFired = true) {thread : Thread}
    (hblock : thread.mayBlock = true) (limits : QueryLimits) (collection : String)
    (filter : Mapping) : call limits thread [.str collection, .map filter] s
      = .refused (refusal s.connection collection) := by
  have hchecks : ¬ (s.Admits collection ∧ s.hasFired = false) := by
    rintro ⟨-, hunfired⟩
    cases hfired.symm.trans hunfired
  rw [call_of_arguments, if_pos hblock, run_of_not_permitted limits filter hchecks]
  rfl

end Query

/-! ## §3. Calls under a signal that has fired. -/

namespace Host

variable {α : Type} {g : Wiring} {h : Host World} {signal : SignalId} {thread : Thread}
  {script : Script World α} {w : World} {c : Call World}

/-- What a query of an evaluation does when it is run and the signal has fired. -/
theorem Queries.call_of_hasFired (hq : h.Queries g) (hc : c ∈ h.history signal thread script w)
    (hname : c.name = Query.signature.name) (hblock : thread.mayBlock = true)
    (hfired : c.state.world.signals.hasFired signal = true) {context : CallContext}
    {args : List Value} {key : Option String} (hplan : c.plan g = .run context args key) :
    ∃ collection filter, c.arguments = .ok [.str collection, .map filter] ∧
      Query.call g.limits context.thread args (c.setting g context) = .refused
        (Query.refusal (c.state.world.setting g.connector signal).connection collection) := by
  obtain ⟨hcontext, hargs, -⟩ := CallSite.plan_eq_run hplan
  obtain rfl := Except.ok.inj (hcontext.symm.trans (context_of_mem_history hc))
  obtain ⟨collection, filter, rfl⟩ :=
    Query.arguments_eq_ok ((hq.arguments_eq hc hname).symm.trans hargs)
  exact ⟨collection, filter, hargs,
    Query.call_of_hasFired (s := c.setting g ⟨h.slot.begun, signal, thread⟩) hfired hblock ..⟩

/-- **A query under a signal that has fired** sends nothing, and leaves the stores as they are. -/
theorem Queries.unsent_of_hasFired (hq : h.Queries g) (hc : c ∈ h.history signal thread script w)
    (hname : c.name = Query.signature.name) (hblock : thread.mayBlock = true)
    (hfired : c.state.world.signals.hasFired signal = true) :
    c.sent? g = none ∧
      (g.site.invokeState c.function c.terms c.state).world.stores = c.state.world.stores ∧
      (g.site.invokeState c.function c.terms c.state).world.sent = c.state.world.sent := by
  have hcarried : c.sent? g = none ∧
      (g.site.carryOut c.function c.state (c.plan g)).2.world.stores = c.state.world.stores ∧
      (g.site.carryOut c.function c.state (c.plan g)).2.world.sent = c.state.world.sent := by
    cases hplan : c.plan g with
    | refuse e => exact ⟨(Call.unsent_of_plan (by rw [hplan]; rfl)).1, rfl, rfl⟩
    | reuse v => exact ⟨(Call.unsent_of_plan (by rw [hplan]; rfl)).1, rfl, rfl⟩
    | run context args key =>
      obtain ⟨collection, filter, -, hcall⟩ := hq.call_of_hasFired hc hname hblock hfired hplan
      constructor
      · rw [Call.sent?_of_plan_run hname hplan, hcall]
        rfl
      · have hrun : (g.function.run context args c.state.world).2
            = ((World.access g.connector g.bridge).conclude
                (Query.call g.limits context.thread args (c.setting g context))
                c.state.world).2 := rfl
        have hworld : (c.function.run context args c.state.world).2
            = c.state.world.settle g.connector g.bridge none none 0 := by
          rw [hq.function_eq hc hname, hrun, hcall]
          rfl
        rw [CallSite.world_carryOut_run, hworld]
        exact World.stores_settle ..
  refine ⟨hcarried.1, ?_⟩
  rw [CallSite.world_invokeState]
  cases c.failure? g.site <;> exact hcarried.2

/-- **A query under a signal that has fired** which repeats no earlier answer fails: for its
arguments, or with the first precondition that does not hold. -/
theorem Queries.answer_of_hasFired (hq : h.Queries g) {before after : List (Call World)}
    (hsplit : h.history signal thread script w = before ++ c :: after)
    (hfree : CollisionFree g.site.digest (h.history signal thread script w))
    (hname : c.name = Query.signature.name) (hblock : thread.mayBlock = true)
    (hfired : c.state.world.signals.hasFired signal = true)
    (hnew : ¬ c.Repeats g.site before) :
    (¬ Query.WellTyped c.terms →
      ∃ message, c.answer g.site = .error (.type message (Query.blamed c.terms))) ∧
    (Query.WellTyped c.terms → ∃ collection filter,
      c.arguments = .ok [.str collection, .map filter] ∧ c.answer g.site = .error
        (Query.refusal (c.state.world.setting g.connector signal).connection collection)) := by
  have hc : c ∈ h.history signal thread script w := by
    rw [hsplit]
    simp
  constructor
  · intro hterms
    obtain ⟨message, hplan⟩ := hq.plan_of_not_wellTyped hc hname hterms
    exact ⟨message, Call.answer_of_plan_refuse hplan⟩
  · intro hterms
    obtain ⟨collection, filter, hargs⟩ := Query.arguments_of_wellTyped hterms
    have hargs : c.arguments = .ok [.str collection, .map filter] :=
      (hq.arguments_eq hc hname).trans hargs
    have hcontext := context_of_mem_history hc
    have hmemoize : c.function.signature.memoize = true := by
      rw [hq.function_eq hc hname]
      rfl
    obtain ⟨key, hkey⟩ := CallKey.exists_ofCall_of_arguments g.site.digest c.name hargs
    -- Nothing is kept for the call, since it repeats none.
    have hnone : c.state.slot.memoized? key = none := by
      rw [Option.eq_none_iff_forall_ne_some]
      intro v hv
      rw [← hq.site] at hfree hkey hnew
      exact hnew (repeats_of_memoized? hsplit hfree hargs hkey hv)
    have hplan := CallSite.plan_not_found hcontext hargs hmemoize hkey hnone
    obtain ⟨collection', filter', hargs', hcall⟩ :=
      hq.call_of_hasFired hc hname hblock hfired hplan
    cases hargs.symm.trans hargs'
    refine ⟨collection, filter, hargs, ?_⟩
    refine Call.failure?_eq_some.mp (Call.failure?_of_run_error hplan ?_)
    rw [hq.function_eq hc hname]
    exact congrArg Query.Outcome.result hcall

/-- A query that repeats an earlier one that succeeded has the same answer. -/
theorem Queries.answer_of_earlier (hq : h.Queries g) {before after : List (Call World)}
    (hsplit : h.history signal thread script w = before ++ c :: after)
    (hname : c.name = Query.signature.name) {d : Call World} (hd : d ∈ before)
    (hdname : d.name = c.name) {args : List Value} (hdargs : d.arguments = .ok args)
    (hargs : c.arguments = .ok args) {t : Term} (ht : d.answer g.site = .ok t) :
    c.answer g.site = .ok t := by
  have hc : c ∈ h.history signal thread script w := by
    rw [hsplit]
    simp
  have hmemoize : c.function.signature.memoize = true := by
    rw [hq.function_eq hc hname]
    rfl
  rw [← hq.site] at ht ⊢
  exact Host.answer_of_earlier hsplit hmemoize hd hdname hdargs hargs ht

/-- **A query under a signal that has fired** succeeds exactly if it repeats an earlier one that
did. -/
theorem Queries.succeeds_iff_repeats (hq : h.Queries g) {before after : List (Call World)}
    (hsplit : h.history signal thread script w = before ++ c :: after)
    (hfree : CollisionFree g.site.digest (h.history signal thread script w))
    (hname : c.name = Query.signature.name) (hblock : thread.mayBlock = true)
    (hfired : c.state.world.signals.hasFired signal = true) :
    c.Succeeds g.site ↔ c.Repeats g.site before := by
  constructor
  · rintro ⟨t, ht⟩
    by_contra hnew
    obtain ⟨hill, hwell⟩ := hq.answer_of_hasFired hsplit hfree hname hblock hfired hnew
    by_cases hterms : Query.WellTyped c.terms
    · obtain ⟨collection, filter, -, hfails⟩ := hwell hterms
      rw [ht] at hfails
      cases hfails
    · obtain ⟨message, hfails⟩ := hill hterms
      rw [ht] at hfails
      cases hfails
  · rintro ⟨d, hd, hdname, ⟨t, ht⟩, args, hdargs, hargs⟩
    exact ⟨t, hq.answer_of_earlier hsplit hname hd hdname hdargs hargs ht⟩

end Host

/-! ## §4. Evaluations. -/

namespace Host

variable {α : Type} {g : Wiring} {h : Host World} {signal : SignalId} {thread : Thread}
  {script : Script World (Except EvaluationFault α)} {w : World}

/-- A signal that has fired when one call is made has fired when a later one is made. -/
theorem Queries.hasFired_of_earlier (hq : h.Queries g)
    (hfunctions : ∀ f ∈ h.functions, f.signature.name ≠ Query.signature.name → ∀ context args,
      World.StaysFired signal fun w => (f.run context args w).2)
    (hscript : script.AllChanges (World.StaysFired signal)) {before after : List (Call World)}
    {c d : Call World} (hsplit : h.history signal thread script w = before ++ c :: after)
    (hd : d ∈ before) (hfired : d.state.world.signals.hasFired signal = true) :
    c.state.world.signals.hasFired signal = true := by
  refine CallSite.calls_prefix
    (P := fun earlier s => (∃ d ∈ earlier, d.state.world.signals.hasFired signal = true) →
      s.world.signals.hasFired signal = true)
    ?_ (fun earlier s change hchange hearlier hfired => hchange s.world (hearlier hfired)) script []
    _ hscript (fun hnone => by simp at hnone) before c after (calls_of_history hsplit)
    ⟨d, hd, hfired⟩
  intro earlier c hinstalled hearlier hfired
  -- It had fired before the call, or when the call was made.
  have hbefore : c.state.world.signals.hasFired signal = true := by
    obtain ⟨d, hd, hfired⟩ := hfired
    rcases List.mem_append.mp hd with hd | hd
    · exact hearlier ⟨d, hd, hfired⟩
    · obtain rfl := List.mem_singleton.mp hd
      exact hfired
  rw [hq.site]
  refine CallSite.staysFired_invokeState (fun context args => ?_) hbefore
  by_cases hname : c.name = Query.signature.name
  · rw [hname, hq.installed] at hinstalled
    rw [← Option.some.inj hinstalled]
    exact g.staysFired_function signal context args
  · exact hfunctions c.function (List.mem_of_find?_eq_some hinstalled) hname context args

/-- **After cancellation nothing reaches a store.**  Let an idle host evaluate on a thread that may
wait, let the signal have fired when the first of the calls `after` is made, and let nothing else in
the world take that back.  Then of the queries among these calls:

* none sends a find, and each leaves the stores as they are;
* one that repeats an earlier query that succeeded has the same answer;
* every other one fails: with a type error that blames the first bad argument, or else with the
  first precondition that does not hold, the signal being the last.

So the evaluation has a result exactly if the engine ended with it, no call before failed, no call
of another function failed since, and each query since repeats an earlier one that succeeded. -/
theorem queries_after_cancellation (hq : h.Queries g) (hidle : h.slot.IsIdle)
    (hblock : thread.mayBlock = true)
    (hfunctions : ∀ f ∈ h.functions, f.signature.name ≠ Query.signature.name → ∀ context args,
      World.StaysFired signal fun w => (f.run context args w).2)
    (hscript : script.AllChanges (World.StaysFired signal))
    (hfree : CollisionFree g.site.digest (h.history signal thread script w))
    {before after : List (Call World)}
    (hsplit : h.history signal thread script w = before ++ after)
    (hfired : ∀ c ∈ after.head?, c.state.world.signals.hasFired signal = true) :
    (∀ earlier c later, after = earlier ++ c :: later → c.name = Query.signature.name →
      (c.sent? g = none ∧
        (g.site.invokeState c.function c.terms c.state).world.stores = c.state.world.stores ∧
        (g.site.invokeState c.function c.terms c.state).world.sent = c.state.world.sent) ∧
      (∀ d ∈ before ++ earlier, ∀ args t, d.name = c.name → d.arguments = .ok args →
        c.arguments = .ok args → d.answer g.site = .ok t → c.answer g.site = .ok t) ∧
      (¬ c.Repeats g.site (before ++ earlier) →
        (¬ Query.WellTyped c.terms →
          ∃ message, c.answer g.site = .error (.type message (Query.blamed c.terms))) ∧
        (Query.WellTyped c.terms → ∃ collection filter,
          c.arguments = .ok [.str collection, .map filter] ∧ c.answer g.site = .error
            (Query.refusal (c.state.world.setting g.connector signal).connection collection)))) ∧
    ∀ a, (h.evaluateScript signal thread script w).1 = .ok a ↔
      h.engineOutcome signal thread script w = .ok a ∧ (∀ c ∈ before, c.Succeeds g.site) ∧
        (∀ c ∈ after, c.name ≠ Query.signature.name → c.Succeeds g.site) ∧
        ∀ earlier c later, after = earlier ++ c :: later → c.name = Query.signature.name →
          c.Repeats g.site (before ++ earlier) := by
  have hsplits : ∀ earlier c later, after = earlier ++ c :: later →
      h.history signal thread script w = (before ++ earlier) ++ c :: later := by
    rintro earlier c later rfl
    rw [hsplit, List.append_assoc]
  -- The signal has fired at the first of these calls, so it has at all of them.
  have hall : ∀ earlier c later, after = earlier ++ c :: later →
      c.state.world.signals.hasFired signal = true := by
    intro earlier c later hafter
    have hlater := hsplits earlier c later hafter
    cases earlier with
    | nil => exact hfired c (by simp [hafter])
    | cons d earlier =>
      refine hq.hasFired_of_earlier hfunctions hscript hlater (d := d) (by simp) ?_
      exact hfired d (by simp [hafter])
  constructor
  · intro earlier c later hafter hname
    have hlater := hsplits earlier c later hafter
    have hsignal := hall earlier c later hafter
    have hc : c ∈ h.history signal thread script w := by
      rw [hlater]
      simp
    refine ⟨hq.unsent_of_hasFired hc hname hblock hsignal, ?_,
      hq.answer_of_hasFired hlater hfree hname hblock hsignal⟩
    intro d hd args t hdname hdargs hargs ht
    exact hq.answer_of_earlier hlater hname hd hdname hdargs hargs ht
  · have hsucceeds : ∀ earlier c later, after = earlier ++ c :: later →
        c.name = Query.signature.name →
          (c.Succeeds g.site ↔ c.Repeats g.site (before ++ earlier)) :=
      fun earlier c later hafter hname => hq.succeeds_iff_repeats (hsplits earlier c later hafter)
        hfree hname hblock (hall earlier c later hafter)
    intro a
    rw [evaluateScript_eq_ok_iff hidle, hsplit, hq.site]
    constructor
    · rintro ⟨houtcome, hsucceed⟩
      refine ⟨houtcome, fun c hc => hsucceed c (by simp [hc]),
        fun c hc _ => hsucceed c (by simp [hc]), ?_⟩
      intro earlier c later hafter hname
      exact (hsucceeds earlier c later hafter hname).mp (hsucceed c (by simp [hafter]))
    · rintro ⟨houtcome, hbefore, hothers, hrepeat⟩
      refine ⟨houtcome, fun c hc => ?_⟩
      rcases List.mem_append.mp hc with hc | hc
      · exact hbefore c hc
      · by_cases hname : c.name = Query.signature.name
        · obtain ⟨earlier, later, hafter⟩ := List.append_of_mem hc
          exact (hsucceeds earlier c later hafter hname).mpr (hrepeat earlier c later hafter hname)
        · exact hothers c hc hname

/-- An engine that asks for one user twice, and then for another one; after the first answer the
signal fires. -/
def persisting : Script World (Except EvaluationFault Nat) :=
  .call "mongodb.query" (userTerms 1) fun _ =>
    .meanwhile (fun w => { w with signals := w.signals.fire 0 }) <|
      .call "mongodb.query" (userTerms 1) fun _ => .call "mongodb.query" (userTerms 2) fun _ =>
        .done (.ok 7)

theorem queries_after_cancellation_persisting :
    inquiring.Queries single ∧ inquiring.slot.IsIdle ∧ Thread.plain.mayBlock = true ∧
      persisting.AllChanges (World.StaysFired 0) ∧
      CollisionFree single.site.digest (inquiring.history 0 .plain persisting (stocked 0 0 [])) ∧
      ∃ c d e, inquiring.history 0 .plain persisting (stocked 0 0 []) = [c] ++ [d, e] ∧
        d.state.world.signals.hasFired 0 = true ∧
        (∃ t, c.answer single.site = .ok t ∧ d.answer single.site = .ok t) ∧
        e.sent? single = none ∧
        ∀ a, (inquiring.evaluateScript 0 .plain persisting (stocked 0 0 [])).1 ≠ .ok a := by
  have hq : inquiring.Queries single := ⟨rfl, rfl⟩
  have hscript : persisting.AllChanges (World.StaysFired 0) :=
    fun _ => ⟨fun w _ => rfl, fun _ _ => trivial⟩
  have hfunctions : ∀ f ∈ inquiring.functions, f.signature.name ≠ Query.signature.name →
      ∀ context args, World.StaysFired 0 fun w => (f.run context args w).2 := by
    intro f hf hname
    obtain rfl := List.mem_singleton.mp hf
    exact absurd rfl hname
  obtain ⟨c, d, e, hcalls, hcname, hdname, hename, hcargs, hdargs, heargs, hfired⟩ :
      ∃ c d e, inquiring.history 0 .plain persisting (stocked 0 0 []) = [c] ++ [d, e] ∧
        c.name = Query.signature.name ∧ d.name = Query.signature.name ∧
        e.name = Query.signature.name ∧
        c.arguments = .ok [.str "users", .map [("id", .int 1)]] ∧
        d.arguments = .ok [.str "users", .map [("id", .int 1)]] ∧
        e.arguments = .ok [.str "users", .map [("id", .int 2)]] ∧
        d.state.world.signals.hasFired 0 = true :=
    ⟨_, _, _, rfl, rfl, rfl, rfl, rfl, rfl, rfl, rfl⟩
  have hkeys : (CallKey.ofCall Digest.Blake3.hex Query.signature.name
        [.str "users", .map [("id", .int 1)]]).toOption
      ≠ (CallKey.ofCall Digest.Blake3.hex Query.signature.name
        [.str "users", .map [("id", .int 2)]]).toOption := by decide +kernel
  have hfree : CollisionFree single.site.digest
      (inquiring.history 0 .plain persisting (stocked 0 0 [])) := by
    refine .of_two ?_ hkeys
    rw [hcalls]
    simp [hcname, hdname, hename, hcargs, hdargs, heargs]
  obtain ⟨hqueries, hresult⟩ :=
    queries_after_cancellation hq rfl rfl hfunctions hscript hfree hcalls fun c hc => by
      obtain rfl := Option.some.inj hc
      exact hfired
  have hanswered : ∃ t, c.answer single.site = .ok t := by
    have hsome : ∀ c ∈ (inquiring.history 0 .plain persisting (stocked 0 0 [])).head?,
        (c.answer single.site).toOption.isSome = true := by decide +kernel
    rw [hcalls] at hsome
    cases hanswer : c.answer single.site with
    | ok t => exact ⟨t, rfl⟩
    | error e =>
      have hc := hsome c rfl
      rw [hanswer] at hc
      cases hc
  obtain ⟨t, ht⟩ := hanswered
  refine ⟨hq, rfl, rfl, hscript, hfree, c, d, e, hcalls, hfired, ⟨t, ht, ?_⟩, ?_, ?_⟩
  · exact (hqueries [] d [e] rfl hdname).2.1 c (by simp) _ t (hcname.trans hdname.symm) hcargs
      hdargs ht
  · exact (hqueries [d] e [] rfl hename).1.1
  · -- The last query asks for something new.
    intro a ha
    obtain ⟨-, -, -, hrepeats⟩ := (hresult a).mp ha
    obtain ⟨b, hb, -, -, args, hbargs, hargs⟩ := hrepeats [d] e [] rfl hename
    rw [heargs] at hargs
    cases hargs
    rcases List.mem_cons.mp hb with rfl | hb
    · rw [hcargs] at hbargs
      cases hbargs
    · obtain rfl := List.mem_singleton.mp hb
      rw [hdargs] at hbargs
      cases hbargs

end Host

end PolicyLookup
