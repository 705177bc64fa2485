/-
  PolicyLookup.Proofs.Session.Refusal — queries that are refused for their arguments.

  A call whose plan is to refuse comes to nothing but its failure: the slot keeps it, the host
  counts it, and neither the stores nor the kept results have changed.  Whether the call of a query
  is one of these for its arguments is decided by its terms alone.  The call of a query that runs
  has a collection and a filter, so the query's own checks of its arguments always pass.

    * `answer_of_plan_refuse`, `invokeState_of_plan_refuse` — what comes of a refusal.
    * `World.fails_record` — what a counted failure leaves alone.
    * `ill_typed_refused` — the main result.
-/

import PolicyLookup.Proofs.Query.Typing
import PolicyLookup.Proofs.Session.Conservation

namespace PolicyLookup

/-! ## §1. Refusals. -/

/-- Between two worlds nothing has happened but a failure of the given category, counted at the
host. -/
structure World.Fails (host : Nat) (category : String) (w w' : World) : Prop where
  stores : w'.stores = w.stores
  sent : w'.sent = w.sent
  counters : ∀ k, { w'.counters k with callFailures := (w.counters k).callFailures } = w.counters k
  callFailures : w.HasCounters host → ∀ k, (w'.counters host).failuresOf k
    = (w.counters host).failuresOf k + if category = k then 1 else 0

theorem World.fails_record (w : World) (host : Nat) (category : String) :
    w.Fails host category (w.record host (.callFailure category)) where
  stores := rfl
  sent := rfl
  counters := by
    intro k
    unfold counters
    rw [get?_record]
    cases w.metrics.get? k with
    | none => split <;> rfl
    | some m => split <;> rfl
  callFailures := by
    intro h k
    rw [counters_record h, if_pos rfl, Metrics.failuresOf_record_callFailure]

namespace Call

variable {g : Wiring} {c : Call World} {e : Error}

theorem answer_of_plan_refuse (h : c.plan g = .refuse e) : c.answer g.site = .error e :=
  failure?_eq_some.mp (failure?_of_plan_refuse h)

/-- A call that is refused leaves its failure, and nothing else. -/
theorem invokeState_of_plan_refuse (h : c.plan g = .refuse e) :
    g.site.invokeState c.function c.terms c.state
      = ⟨c.state.slot.fail e, c.state.world.record g.host (.callFailure e.category)⟩ := by
  have hanswer : g.site.invokeAnswer c.function c.terms c.state = .error e :=
    answer_of_plan_refuse h
  rw [CallSite.invokeState_of_error hanswer]
  change CallSite.plan g.site.digest c.function.signature c.terms c.state.slot = .refuse e at h
  rw [h]
  rfl

end Call

/-! ## §2. Queries among the calls of an evaluation. -/

namespace Host

/-- The host makes its calls at the site, and the function for queries is installed. -/
structure Queries (g : Wiring) (h : Host World) : Prop where
  site : h.site = g.site
  installed : CallSite.find? h.functions Query.signature.name = some g.function

variable {α : Type} {g : Wiring} {h : Host World} {signal : SignalId} {thread : Thread}
  {script : Script World α} {w : World} {c : Call World}

/-- What is called under the name of queries is the function for queries. -/
theorem Queries.function_eq (hq : h.Queries g) (hc : c ∈ h.history signal thread script w)
    (hname : c.name = Query.signature.name) : c.function = g.function := by
  have hfound := find?_name_of_mem_history hc
  rw [hname, hq.installed] at hfound
  exact (Option.some.inj hfound).symm

/-- The arguments of a query are decoded as its declaration says. -/
theorem Queries.arguments_eq (hq : h.Queries g) (hc : c ∈ h.history signal thread script w)
    (hname : c.name = Query.signature.name) :
    c.arguments = CallSite.arguments Query.signature c.terms := by
  unfold Call.arguments
  rw [hq.function_eq hc hname]
  rfl

/-- Arguments that are not those of a query are refused. -/
theorem Queries.plan_of_not_wellTyped (hq : h.Queries g)
    (hc : c ∈ h.history signal thread script w) (hname : c.name = Query.signature.name)
    (hterms : ¬ Query.WellTyped c.terms) :
    ∃ message, c.plan g = .refuse (.type message (Query.blamed c.terms)) := by
  obtain ⟨message, hargs⟩ := Query.arguments_of_not_wellTyped hterms
  refine ⟨message, CallSite.plan_of_arguments_error (context_of_mem_history hc) ?_⟩
  exact (hq.arguments_eq hc hname).trans hargs

/-- **Ill-typed queries never reach a store.**  A call of the installed query whose terms are not
those of a query fails with a type error that blames the first bad one.  It sends nothing, keeps no
result, and changes no counter but that of the type errors.  And whenever the query itself runs, the
arguments that it looks at are a collection and a filter, so only its thread can keep it from being
the query for these. -/
theorem ill_typed_refused (hq : h.Queries g) (hc : c ∈ h.history signal thread script w)
    (hname : c.name = Query.signature.name) :
    (¬ Query.WellTyped c.terms →
      ∃ message, c.answer g.site = .error (.type message (Query.blamed c.terms)) ∧
        c.sent? g = none ∧
        let s := g.site.invokeState c.function c.terms c.state
        c.state.world.Fails g.host "type" s.world ∧
          (∀ key, s.slot.memoized? key = c.state.slot.memoized? key) ∧
          s.slot.memoSize = c.state.slot.memoSize) ∧
    ∀ args ∈ c.runs g.site, ∃ collection filter, args = [.str collection, .map filter] ∧
      ∀ thread setting, Query.call g.limits thread args setting =
        if thread.mayBlock then
          (Query.run g.limits collection filter setting).map fun ms => .seq (ms.map .map)
        else .refused (.internal ("cannot block a current-thread tokio runtime; evaluate policies "
          ++ "from a plain thread or a multi-thread runtime")) := by
  constructor
  · intro hterms
    obtain ⟨message, hplan⟩ := hq.plan_of_not_wellTyped hc hname hterms
    refine ⟨message, Call.answer_of_plan_refuse hplan,
      (Call.unsent_of_plan (by rw [hplan]; rfl)).1, ?_⟩
    rw [Call.invokeState_of_plan_refuse hplan]
    exact ⟨c.state.world.fails_record g.host "type", Slot.memoized?_fail c.state.slot _,
      Slot.memoSize_fail c.state.slot _⟩
  · intro args hruns
    have hargs := (hq.arguments_eq hc hname).symm.trans (Call.arguments_of_mem_runs hruns)
    obtain ⟨collection, filter, rfl⟩ := Query.arguments_eq_ok hargs
    exact ⟨collection, filter, rfl,
      fun thread setting => Query.call_of_arguments g.limits thread collection filter setting⟩

/-- An engine that asks with a filter one key of which is a number. -/
def misspelling : Script World (Except EvaluationFault Nat) :=
  .call "mongodb.query" [.str "users", .obj [(.num 1, .null)]] fun _ => .done (.ok 0)

theorem ill_typed_refused_misspelling :
    ∃ c ∈ inquiring.history 0 .plain misspelling (stocked 0 0 []),
      inquiring.Queries single ∧ c.name = Query.signature.name ∧ ¬ Query.WellTyped c.terms ∧
        (∃ message, c.answer single.site = .error (.type message (some 2))) ∧
        ((single.site.invokeState c.function c.terms c.state).world.counters 0).failuresOf "type"
          = 1 := by
  have hq : inquiring.Queries single := ⟨rfl, rfl⟩
  have hill : ¬ Query.WellTyped [.str "users", .obj [(.num 1, .null)]] := by
    rintro ⟨collection, pairs, hterms, hnative⟩
    cases hterms
    obtain ⟨⟨key, hkey⟩, -⟩ := hnative
    cases hkey
  have hmem : ⟨single.function, [.str "users", .obj [(.num 1, .null)]], inquiring.opening 0 .plain
      (stocked 0 0 [])⟩ ∈ inquiring.history 0 .plain misspelling (stocked 0 0 []) := .head _
  refine ⟨_, hmem, hq, rfl, hill, ?_⟩
  obtain ⟨message, hanswer, -, hfails, -⟩ := (ill_typed_refused hq hmem rfl).1 hill
  exact ⟨⟨message, hanswer⟩, hfails.callFailures rfl "type"⟩

end Host

end PolicyLookup
