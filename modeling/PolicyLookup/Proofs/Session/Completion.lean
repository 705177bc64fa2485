/-
  PolicyLookup.Proofs.Session.Completion — a find that has returned documents is answered.

  Between the documents that a find has returned and the end of the call lie three checks: the
  result must have the declared shape, it must have a term, and the arguments must have a key under
  which it is kept.  None of them fails, since neither terms nor documents bring doubles that are
  not finite.

    * `answer_of_run` — a run whose result passes the checks is answered and kept.
    * `exists_run_of_ending?` — where a find has ended a query has been run.
    * `decoded_is_encodable_and_answered` — the main result.
-/

import PolicyLookup.Proofs.Query.Result
import PolicyLookup.Proofs.Session.Refusal

namespace PolicyLookup

/-! ## §1. Runs that are answered. -/

namespace Call

/-- **A run whose result has the declared shape and a term** is answered with the term, and its
result is kept. -/
theorem answer_of_run {σ : Type} {site : CallSite σ} {c : Call σ} {context : CallContext}
    {args : List Value} {key : String} {v : Value} {t : Term}
    (hplan : CallSite.plan site.digest c.function.signature c.terms c.state.slot
      = .run context args (some key))
    (hrun : (c.function.run context args c.state.world).1 = .ok v)
    (haccepts : c.function.signature.result.accepts v = true) (ht : v.toTerm = .ok t) :
    c.answer site = .ok t ∧
      (site.invokeState c.function c.terms c.state).slot.memoized? key = some v := by
  have hrunning := Slot.isRunning_of_context (CallSite.plan_eq_run hplan).1
  have hencoded : CallSite.runEncoded c.function context args c.state.world
      = (.ok (v, t), (c.function.run context args c.state.world).2) := by
    rw [CallSite.runEncoded_eq, hrun]
    simp only [CallSite.encoded, haccepts, if_true, ht]
    rfl
  have hanswer : site.invokeAnswer c.function c.terms c.state = .ok t := by
    rw [CallSite.invokeAnswer_eq, hplan]
    simp only [CallSite.carryOut, hencoded]
  refine ⟨hanswer, ?_⟩
  rw [CallSite.invokeState_of_ok hanswer, hplan]
  simp only [CallSite.carryOut, hencoded]
  show (c.state.slot.memoize key v).memoized? key = some v
  rw [Slot.memoized?_memoize hrunning, if_pos rfl]

variable {g : Wiring} {c : Call World}

/-- Where the find of a call has ended, the call has run a query, the find has been its request, and
the result is to be kept under the key of the call. -/
theorem exists_run_of_ending? (hfunction : c.function = g.function) {e : Query.Ending}
    (h : c.ending? g = some e) : ∃ context args key r,
      c.plan g = .run context args (some key) ∧
      CallKey.ofCall g.site.digest c.name args = .ok key ∧
      (Query.call g.limits context.thread args (c.setting g context)).request = some r ∧
      Query.ending g.limits (c.setting g context) r = some e := by
  unfold ending? at h
  obtain ⟨⟨context, args⟩, hquery, h⟩ := Option.bind_eq_some_iff.mp h
  obtain ⟨r, hsent, hending⟩ := Option.bind_eq_some_iff.mp h
  unfold sent? at hsent
  rw [hquery] at hsent
  -- A query is started only by a plan to run.
  have hplan : ∃ key, c.plan g = .run context args key := by
    unfold query? at hquery
    split at hquery
    · split at hquery
      · next context' args' key hplan =>
        cases hquery
        exact ⟨key, hplan⟩
      · cases hquery
    · cases hquery
  obtain ⟨key, hplan⟩ := hplan
  obtain ⟨-, -, hkey⟩ := CallSite.plan_eq_run hplan
  have hmemoize : c.function.signature.memoize = true := by
    rw [hfunction]
    rfl
  rcases hkey with ⟨-, hnone⟩ | ⟨key, rfl, -, hkey, -⟩
  · rw [hmemoize] at hnone
    cases hnone
  · exact ⟨context, args, key, r, hplan, hkey, hsent, hending⟩

end Call

/-! ## §2. Queries that are answered. -/

namespace Host

variable {α : Type}

/-- **What is decoded can be encoded, so finds are not lost.**

* Values that arguments are decoded to have finite doubles only; each has a document, and a call
  with them has a key.
* The result that documents are decoded to has finite doubles only; it has the declared shape, a
  document and a term.
* So a query whose find has returned documents that are not too many and can be decoded succeeds
  with the term of its result, and the result is kept under the key of the call. -/
theorem decoded_is_encodable_and_answered (g : Wiring) :
    (∀ terms args, List.Forall₂
        (fun (t : Term) v => ∃ shape position, t.decodeArgument shape position = .ok v) terms args →
      (∀ v ∈ args, (∀ x ∈ v.floats, x.isFinite = true) ∧ ∃ j, v.encodeJson = .ok j) ∧
        ∀ digest name, ∃ key, CallKey.ofCall digest name args = .ok key) ∧
    (∀ ds ms, Document.decodeAll ds = .ok ms →
      (∀ x ∈ (Value.seq (ms.map .map)).floats, x.isFinite = true) ∧
        Query.signature.result.accepts (.seq (ms.map .map)) = true ∧
        (∃ j, (Value.seq (ms.map .map)).encodeJson = .ok j) ∧
        ∃ t, (Value.seq (ms.map .map)).toTerm = .ok t) ∧
    ∀ h : Host World, h.Queries g → ∀ signal thread (script : Script World α) w,
      ∀ c ∈ h.history signal thread script w, c.name = Query.signature.name →
        ∀ ds ms, c.ending? g = some (.returned ds) → ds.length ≤ g.limits.maxDocuments →
          Document.decodeAll ds = .ok ms →
          ∃ args key t, c.arguments = .ok args ∧
            CallKey.ofCall g.site.digest c.name args = .ok key ∧
            (Value.seq (ms.map .map)).toTerm = .ok t ∧ c.answer g.site = .ok t ∧
            (g.site.invokeState c.function c.terms c.state).slot.memoized? key
              = some (.seq (ms.map .map)) := by
  refine ⟨?_, ?_, ?_⟩
  · intro terms args hdecoded
    have hfinite : ∀ v ∈ args, ∀ x ∈ v.floats, x.isFinite = true :=
      forall_mem_of_forall₂ hdecoded fun t v ⟨shape, position, hv⟩ =>
        Term.isFinite_of_decodeArgument hv
    exact ⟨fun v hv => ⟨hfinite v hv, Value.exists_encodeJson (hfinite v hv)⟩,
      fun digest name => CallKey.exists_ofCall digest name hfinite⟩
  · intro ds ms hdecode
    have hfinite := Query.isFinite_resultValue hdecode
    exact ⟨hfinite, Query.accepts_resultValue ms, Value.exists_encodeJson hfinite,
      Value.exists_toTerm_of_isFinite hfinite⟩
  · intro h hq signal thread script w c hc hname ds ms hending hlength hdecode
    have hfunction := hq.function_eq hc hname
    obtain ⟨context, args, key, r, hplan, hkey, hrequest, hreturned⟩ :=
      Call.exists_run_of_ending? hfunction hending
    have hargs := (CallSite.plan_eq_run hplan).2.1
    obtain ⟨collection, filter, rfl⟩ :=
      Query.arguments_eq_ok ((hq.arguments_eq hc hname).symm.trans hargs)
    have hresult := Query.call_result_of_ending hrequest hreturned hlength hdecode
    obtain ⟨t, ht⟩ := Value.exists_toTerm_of_isFinite (Query.isFinite_resultValue hdecode)
    have hrun : (c.function.run context [.str collection, .map filter] c.state.world).1
        = .ok (Query.resultValue ms) := by
      rw [hfunction]
      exact hresult
    have haccepts : c.function.signature.result.accepts (Query.resultValue ms) = true := by
      rw [hfunction]
      exact Query.accepts_resultValue ms
    obtain ⟨hanswer, hkept⟩ := Call.answer_of_run hplan hrun haccepts ht
    exact ⟨_, key, t, hargs, hkey, ht, hanswer, hkept⟩

/-- A find in the stocked store returns its one document, and the query is answered. -/
theorem decoded_is_encodable_and_answered_asking :
    ∃ c ∈ inquiring.history 0 .plain (asking [1]) (stocked 0 0 []),
      inquiring.Queries single ∧ c.name = Query.signature.name ∧
        c.ending? single = some (.returned [[("id", .int64 1)]]) ∧
        ∃ t, (Value.seq [.map [("id", .int 1)]]).toTerm = .ok t ∧
          c.answer single.site = .ok t := by
  have hq : inquiring.Queries single := ⟨rfl, rfl⟩
  have hmem : ⟨single.function, userTerms 1, inquiring.opening 0 .plain (stocked 0 0 [])⟩
      ∈ inquiring.history 0 .plain (asking [1]) (stocked 0 0 []) := .head _
  have hending : (Call.ending? single
      ⟨single.function, userTerms 1, inquiring.opening 0 .plain (stocked 0 0 [])⟩)
        = some (.returned [[("id", .int64 1)]]) := rfl
  obtain ⟨-, -, hall⟩ := decoded_is_encodable_and_answered single
  obtain ⟨args, key, t, -, -, ht, hanswer, -⟩ := hall inquiring hq 0 .plain (asking [1])
    (stocked 0 0 []) _ hmem rfl _ _ hending (by decide) rfl
  exact ⟨_, hmem, hq, rfl, hending, t, ht, hanswer⟩

end Host

end PolicyLookup
