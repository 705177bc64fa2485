/-
  PolicyLookup.Proofs.Session.Tally — what a call adds to the counters.

  Counters are touched from three places: a query reports how its find ended, a call reports that it
  reused a result or that it failed, an evaluation reports that it has begun.  A `Tally` is what some
  evaluations with some calls should have added to the counters, read off the calls themselves: the
  finds that they sent, how these ended, the results that they reused, and the errors that they
  answered.  Each call adds its own tally, whatever the store and the signal did.

    * `World.counts_event` — what one reported event adds.
    * `Call.query_cases` — nothing sent and nothing reported, or one find and its ending.
    * `Call.hit_or_early_or_sent` — a query is exactly one of three things.
    * `CallSite.counts_invokeState` — what one call adds.
-/

import PolicyLookup.Proofs.Evaluation.FirstFailure
import PolicyLookup.Proofs.Evaluation.Snapshot
import PolicyLookup.Proofs.Metrics
import PolicyLookup.Proofs.Query.Ending
import PolicyLookup.Proofs.Session.Finds

namespace PolicyLookup

/-- How queries are wired: the connector that they go over, the counters of the bridge and those of
the host, and what a query may take. -/
structure Wiring where
  connector : Nat
  bridge : Nat
  host : Nat
  limits : QueryLimits

namespace Wiring

variable (g : Wiring)

/-- The function for queries. -/
def function : ExternalFunction World := (World.access g.connector g.bridge).function g.limits

/-- The site at which the host makes its calls. -/
def site : CallSite World := World.callSite g.host

/-- The counters. -/
def view (w : World) : Option Metrics × Option Metrics :=
  (w.metrics.get? g.bridge, w.metrics.get? g.host)

/-- The counters are there. -/
def HasCounters (w : World) : Prop := w.HasCounters g.bridge ∧ w.HasCounters g.host

/-- The function is the one for queries, or one of another name that leaves the counters alone. -/
def Admits (f : ExternalFunction World) : Prop :=
  f = g.function ∨ f.signature.name ≠ Query.signature.name ∧
    ∀ context args w, g.view (f.run context args w).2 = g.view w

end Wiring

/-! ## §1. What a call is, as far as it is counted. -/

namespace Call

variable (g : Wiring) (c : Call World)

/-- What the call is going to do. -/
def plan : Plan := CallSite.plan g.site.digest c.function.signature c.terms c.state.slot

/-- The context and the arguments of the query that the call starts, if it starts one. -/
def query? : Option (CallContext × List Value) :=
  if c.name = Query.signature.name then
    match c.plan g with
    | .run context args _ => some (context, args)
    | _ => none
  else none

/-- The setting in which a query of the call starts. -/
def setting (context : CallContext) : Query.Setting :=
  c.state.world.setting g.connector context.signal

/-- The find that the call has sent. -/
def sent? : Option FindRequest :=
  (c.query? g).bind fun q => (Query.call g.limits q.1.thread q.2 (c.setting g q.1)).request

/-- How the find ended that the call has sent. -/
def ending? : Option Query.Ending :=
  (c.query? g).bind fun q => (c.sent? g).bind fun r => Query.ending g.limits (c.setting g q.1) r

/-- The call answers with a result that was kept. -/
def isHit : Bool :=
  match c.plan g with
  | .reuse _ => true
  | _ => false

/-- The call has sent a find. -/
def hasSent : Bool := (c.sent? g).isSome

/-- The call has failed, and no find has been sent. -/
def failsEarly : Bool := (c.failure? g.site).isSome && !c.hasSent g

/-- The call has failed with an error of the given category. -/
def failsWith (category : String) : Bool :=
  (c.failure? g.site).any fun e => e.category == category

/-- The number of documents that the find of the call has returned, if it has. -/
def documents? : Option Nat := (c.ending? g).bind Query.Ending.documents?

/-- The find of the call has ended in an error of the store, by the deadline or by its signal. -/
def findFails : Bool := (c.ending? g).any fun e => e.documents?.isNone

/-- A signal under which the call may start a query is not due at this very moment. -/
def Punctual : Prop :=
  ∀ context, c.state.slot.context = .ok context → (c.setting g context).Punctual

end Call

/-! ## §2. Tallies. -/

/-- What is to be added to the counters. -/
@[ext] structure Tally where
  queries : Nat
  failures : Nat
  documents : Nat
  hits : Nat
  evaluations : Nat
  callFailures : String → Nat

namespace Tally

instance : Zero Tally := ⟨⟨0, 0, 0, 0, 0, fun _ => 0⟩⟩

instance : Add Tally where
  add t t' := ⟨t.queries + t'.queries, t.failures + t'.failures, t.documents + t'.documents,
    t.hits + t'.hits, t.evaluations + t'.evaluations,
    fun category => t.callFailures category + t'.callFailures category⟩

/-- What an event adds. -/
def ofEvent : Metrics.Event → Tally
  | .query _ documents =>
    ⟨1, if documents.isNone then 1 else 0, documents.getD 0, 0, 0, fun _ => 0⟩
  | .memoHit => ⟨0, 0, 0, 1, 0, fun _ => 0⟩
  | .evaluation => ⟨0, 0, 0, 0, 1, fun _ => 0⟩
  | .callFailure category => ⟨0, 0, 0, 0, 0, fun k => if category = k then 1 else 0⟩

/-- What some evaluations with some calls add. -/
def of (g : Wiring) (evaluations : Nat) (calls : List (Call World)) : Tally where
  queries := calls.countP fun c => c.hasSent g
  failures := calls.countP fun c => c.findFails g
  documents := (calls.map fun c => (c.documents? g).getD 0).sum
  hits := calls.countP fun c => c.isHit g
  evaluations := evaluations
  callFailures := fun category => calls.countP fun c => c.failsWith g category

theorem of_append (g : Wiring) (n n' : Nat) (calls calls' : List (Call World)) :
    of g (n + n') (calls ++ calls') = of g n calls + of g n' calls' := by
  ext category
  · exact List.countP_append
  · exact List.countP_append
  · show ((calls ++ calls').map _).sum = (calls.map _).sum + (calls'.map _).sum
    rw [List.map_append, List.sum_append]
  · exact List.countP_append
  · rfl
  · exact List.countP_append

end Tally

namespace World

variable {g : Wiring} {w w' : World}

/-- From one world to another the counters have grown by a tally. -/
structure Counts (g : Wiring) (t : Tally) (w w' : World) : Prop where
  storeQueries :
    (w'.counters g.bridge).storeQueries = (w.counters g.bridge).storeQueries + t.queries
  storeFailures :
    (w'.counters g.bridge).storeFailures = (w.counters g.bridge).storeFailures + t.failures
  documentsReturned :
    (w'.counters g.bridge).documentsReturned
      = (w.counters g.bridge).documentsReturned + t.documents
  memoHits : (w'.counters g.host).memoHits = (w.counters g.host).memoHits + t.hits
  evaluations : (w'.counters g.host).evaluations = (w.counters g.host).evaluations + t.evaluations
  callFailures : ∀ category, (w'.counters g.host).failuresOf category
    = (w.counters g.host).failuresOf category + t.callFailures category
  hasCounters : g.HasCounters w'

theorem Counts.trans {t t' : Tally} {v : World} (h : Counts g t w v) (h' : Counts g t' v w') :
    Counts g (t + t') w w' where
  storeQueries := by rw [h'.storeQueries, h.storeQueries]; exact Nat.add_assoc ..
  storeFailures := by rw [h'.storeFailures, h.storeFailures]; exact Nat.add_assoc ..
  documentsReturned := by rw [h'.documentsReturned, h.documentsReturned]; exact Nat.add_assoc ..
  memoHits := by rw [h'.memoHits, h.memoHits]; exact Nat.add_assoc ..
  evaluations := by rw [h'.evaluations, h.evaluations]; exact Nat.add_assoc ..
  callFailures := fun category => by
    rw [h'.callFailures, h.callFailures]
    exact Nat.add_assoc ..
  hasCounters := h'.hasCounters

/-- Nothing has been counted where the counters are what they were. -/
theorem counts_zero (hw : g.HasCounters w) (h : g.view w' = g.view w) : Counts g 0 w w' := by
  obtain ⟨hbridge, hhost⟩ := Prod.mk.inj h
  have hb : w'.counters g.bridge = w.counters g.bridge := by
    unfold counters
    rw [hbridge]
  have hh : w'.counters g.host = w.counters g.host := by
    unfold counters
    rw [hhost]
  refine ⟨congrArg _ hb, congrArg _ hb, congrArg _ hb, congrArg _ hh, congrArg _ hh, ?_, ?_⟩
  · intro category
    rw [hh]
    rfl
  · unfold Wiring.HasCounters HasCounters
    rw [hbridge, hhost]
    exact hw

/-- The counters at which an event is reported: queries at the bridge, all else at the host. -/
def place (g : Wiring) : Metrics.Event → Nat
  | .query .. => g.bridge
  | _ => g.host

/-- **What one reported event adds.**  The bridge and the host may have the same counters. -/
theorem counts_event (hw : g.HasCounters w) (event : Metrics.Event)
    (h : ∀ k, w'.metrics.get? k = (w.record (place g event) event).metrics.get? k) :
    Counts g (.ofEvent event) w w' := by
  -- Whether the two places are one or not, only the place of the event matters to each.
  have hcounters : ∀ k, w.HasCounters k → w'.HasCounters k ∧ w'.counters k
      = if place g event = k then (w.counters k).record event else w.counters k := by
    intro k hk
    have hhas := hasCounters_record hk (place g event) event
    rw [← counters_record hk]
    unfold HasCounters counters at *
    rw [h]
    exact ⟨hhas, rfl⟩
  obtain ⟨hhasb, hb⟩ := hcounters g.bridge hw.1
  obtain ⟨hhash, hh⟩ := hcounters g.host hw.2
  have hhas : g.HasCounters w' := ⟨hhasb, hhash⟩
  cases event with
  | query nanos documents =>
    have hb' : w'.counters g.bridge = (w.counters g.bridge).record (.query nanos documents) :=
      hb.trans (if_pos rfl)
    refine ⟨by rw [hb']; rfl, by rw [hb']; rfl, by rw [hb']; rfl, ?_, ?_, fun category => ?_, hhas⟩
    all_goals
      rw [hh]
      split <;> rfl
  | memoHit =>
    have hh' : w'.counters g.host = (w.counters g.host).record .memoHit := hh.trans (if_pos rfl)
    refine ⟨?_, ?_, ?_, by rw [hh']; rfl, by rw [hh']; rfl, fun category => by rw [hh']; rfl, hhas⟩
    all_goals
      rw [hb]
      split <;> rfl
  | evaluation =>
    have hh' : w'.counters g.host = (w.counters g.host).record .evaluation := hh.trans (if_pos rfl)
    refine ⟨?_, ?_, ?_, by rw [hh']; rfl, by rw [hh']; rfl, fun category => by rw [hh']; rfl, hhas⟩
    all_goals
      rw [hb]
      split <;> rfl
  | callFailure kind =>
    have hh' : w'.counters g.host = (w.counters g.host).record (.callFailure kind) :=
      hh.trans (if_pos rfl)
    have hfailures : ∀ category, (w'.counters g.host).failuresOf category
        = (w.counters g.host).failuresOf category + if kind = category then 1 else 0 := by
      intro category
      rw [hh', Metrics.failuresOf_record_callFailure]
    refine ⟨?_, ?_, ?_, by rw [hh']; rfl, by rw [hh']; rfl, hfailures, hhas⟩
    all_goals
      rw [hb]
      split <;> rfl

theorem metrics_settle_none (w : World) (connector i : Nat) (request : Option FindRequest)
    (elapsed : Nat) : (w.settle connector i request none elapsed).metrics = w.metrics := by
  unfold settle
  rcases request with _ | r
  · rfl
  · cases w.connection connector with
    | none => rfl
    | some c =>
      obtain ⟨ref, database⟩ := c
      cases ref <;> rfl

end World

/-! ## §3. What a call sends. -/

namespace Call

variable {g : Wiring} {c : Call World} {context : CallContext} {args : List Value}
  {key : Option String}

/-- A call that starts no query sends nothing. -/
theorem unsent_of_query? (h : c.query? g = none) : c.sent? g = none ∧ c.ending? g = none := by
  unfold sent? ending?
  rw [h]
  exact ⟨rfl, rfl⟩

/-- A call that does not run its function sends nothing. -/
theorem unsent_of_plan (h : (c.plan g).runs = []) : c.sent? g = none ∧ c.ending? g = none := by
  refine unsent_of_query? ?_
  unfold query?
  cases hplan : c.plan g with
  | refuse e => exact ite_self none
  | reuse v => exact ite_self none
  | run context args key =>
    rw [hplan] at h
    cases h

/-- The query of a call is what its plan is to run. -/
theorem query?_of_plan_run (hname : c.name = Query.signature.name)
    (hplan : c.plan g = .run context args key) : c.query? g = some (context, args) := by
  unfold query?
  rw [if_pos hname, hplan]

/-- What a call sends is what its query sends. -/
theorem sent?_of_plan_run (hname : c.name = Query.signature.name)
    (hplan : c.plan g = .run context args key) :
    c.sent? g = (Query.call g.limits context.thread args (c.setting g context)).request := by
  unfold sent?
  rw [query?_of_plan_run hname hplan]
  rfl

/-- A call that starts a query has sent nothing, and nothing is reported of it, or has sent one
find, and the ending of the find is reported. -/
theorem query_cases (hfunction : c.function = g.function) (hpunctual : c.Punctual g)
    (hplan : c.plan g = .run context args key) :
    let o := Query.call g.limits context.thread args (c.setting g context)
    o.IsRefused ∧ c.sent? g = none ∧ c.ending? g = none ∨
      ∃ r e nanos, c.sent? g = some r ∧ c.ending? g = some e
        ∧ o.event = some (.query nanos e.documents?) := by
  intro o
  have hname : c.name = Query.signature.name := by
    unfold name
    rw [hfunction]
    rfl
  have hquery := query?_of_plan_run hname hplan
  have hsent : c.sent? g = o.request := sent?_of_plan_run hname hplan
  have hsetting : (c.setting g context).Punctual :=
    hpunctual context (CallSite.plan_eq_run hplan).1
  rcases Query.call_ending g.limits context.thread args hsetting with hrefused | htells
  · have hnone : c.sent? g = none := by
      obtain ⟨e, he⟩ := hrefused
      rw [hsent, show o = .refused e from he]
      rfl
    refine Or.inl ⟨hrefused, hnone, ?_⟩
    unfold ending?
    rw [hquery, hnone]
    rfl
  · obtain ⟨r, e, nanos, hrequest, hending, hevent⟩ := htells
    refine Or.inr ⟨r, e, nanos, hsent.trans hrequest, ?_, hevent⟩
    unfold ending?
    rw [hquery, hsent, show o.request = some r from hrequest]
    exact hending

/-- A find that has been sent has failed, or has returned documents. -/
theorem failed_or_returned (hfunction : c.function = g.function) (hpunctual : c.Punctual g) :
    (c.hasSent g).toNat = (c.findFails g).toNat + (c.documents? g).isSome.toNat := by
  have hunsent (h : c.sent? g = none ∧ c.ending? g = none) :
      (c.hasSent g).toNat = (c.findFails g).toNat + (c.documents? g).isSome.toNat := by
    unfold hasSent findFails documents?
    rw [h.1, h.2]
    rfl
  cases hplan : c.plan g with
  | refuse e => exact hunsent (unsent_of_plan (by rw [hplan]; rfl))
  | reuse v => exact hunsent (unsent_of_plan (by rw [hplan]; rfl))
  | run context args key =>
    rcases query_cases hfunction hpunctual hplan with ⟨-, h⟩ | ⟨r, e, nanos, hsent, hending, -⟩
    · exact hunsent h
    · unfold hasSent findFails documents?
      rw [hsent, hending]
      cases e <;> rfl

end Call

/-! ## §4. What a call answers. -/

/-- Every result that is kept has a term. -/
def Slot.Presentable (s : Slot) : Prop := ∀ key v, s.memoized? key = some v → ∃ t, v.toTerm = .ok t

namespace CallSite

variable {σ α : Type}

/-- Only results that have a term are kept. -/
theorem presentable_invokeState (site : CallSite σ) (f : ExternalFunction σ) (terms : List Term)
    {s : CallState σ} (h : s.slot.Presentable) :
    (site.invokeState f terms s).slot.Presentable := by
  cases ha : site.invokeAnswer f terms s with
  | error e =>
    intro key v hv
    rw [invokeState_of_error ha, Slot.memoized?_fail] at hv
    exact h key v hv
  | ok t =>
    rw [invokeState_of_ok ha]
    cases hplan : plan site.digest f.signature terms s.slot with
    | refuse e => exact h
    | reuse v => exact h
    | run context args key =>
      simp only [carryOut]
      split
      · exact h
      · next v t w hrun =>
        cases key with
        | none => exact h
        | some key =>
          -- What is kept has just been answered as a term.
          intro k u hu
          have hrunning := Slot.isRunning_of_context (plan_eq_run hplan).1
          simp only [Slot.keep, Slot.memoized?_memoize hrunning] at hu
          split at hu
          · cases hu
            exact ⟨t, toTerm_of_runEncoded hrun⟩
          · exact h k u hu

theorem presentable_of_mem_calls {site : CallSite σ} {functions : List (ExternalFunction σ)}
    {script : Script σ α} {s : CallState σ} (h : s.slot.Presentable) {c : Call σ}
    (hc : c ∈ site.calls functions script s) : c.state.slot.Presentable :=
  calls_invariant script s h
    (fun d _ hd => presentable_invokeState site d.function d.terms hd) c hc

end CallSite

namespace Call

variable {g : Wiring} {c : Call World} {context : CallContext} {args : List Value}
  {key : Option String}

/-- What a call answers is what its plan answers. -/
theorem answer_eq : c.answer g.site = (g.site.carryOut c.function c.state (c.plan g)).1 :=
  CallSite.invokeAnswer_eq ..

theorem failure?_of_plan_refuse {e : Error} (h : c.plan g = .refuse e) :
    c.failure? g.site = some e := by
  rw [failure?_eq_some, answer_eq, h]
  rfl

/-- Where the kept results have terms, to reuse one is to succeed. -/
theorem failure?_of_plan_reuse {v : Value} (h : c.plan g = .reuse v)
    (hslot : c.state.slot.Presentable) : c.failure? g.site = none := by
  obtain ⟨args, -, key, -, hkept⟩ := CallSite.plan_eq_reuse h
  obtain ⟨t, ht⟩ := hslot key v hkept
  rw [failure?_eq_none]
  refine ⟨t, ?_⟩
  rw [answer_eq, h]
  exact ht

theorem failure?_of_run_error {e : Error} (h : c.plan g = .run context args key)
    (hrun : (c.function.run context args c.state.world).1 = .error e) :
    c.failure? g.site = some e := by
  rw [failure?_eq_some, answer_eq, h]
  simp only [CallSite.carryOut, CallSite.runEncoded_eq, hrun, CallSite.encoded]

/-- **A query is exactly one of three things**: it reuses a kept result, fails before a find has
been sent, or sends a find. -/
theorem hit_or_early_or_sent (hfunction : c.function = g.function) (hpunctual : c.Punctual g)
    (hslot : c.state.slot.Presentable) :
    (c.isHit g).toNat + (c.failsEarly g).toNat + (c.hasSent g).toNat = 1 := by
  unfold failsEarly hasSent isHit
  cases hplan : c.plan g with
  | refuse e =>
    rw [failure?_of_plan_refuse hplan, (unsent_of_plan (by rw [hplan]; rfl)).1]
    rfl
  | reuse v =>
    rw [failure?_of_plan_reuse hplan hslot, (unsent_of_plan (by rw [hplan]; rfl)).1]
    rfl
  | run context args key =>
    rcases query_cases hfunction hpunctual hplan with ⟨⟨e, he⟩, hsent, -⟩ | ⟨r, e, nanos, hsent, -⟩
    · have hrun : (c.function.run context args c.state.world).1 = .error e := by
        rw [hfunction]
        exact congrArg Query.Outcome.result he
      rw [failure?_of_run_error hplan hrun, hsent]
      rfl
    · -- With a find it is no early failure, however the call ended.
      rw [hsent]
      cases c.failure? g.site <;> rfl

/-! ## §5. What a call adds. -/

/-- What a call adds apart from its failure. -/
def unfailed (g : Wiring) (c : Call World) : Tally :=
  ⟨if c.hasSent g then 1 else 0, if c.findFails g then 1 else 0, (c.documents? g).getD 0,
    if c.isHit g then 1 else 0, 0, fun _ => 0⟩

theorem unfailed_of_unsent (h : c.sent? g = none ∧ c.ending? g = none) :
    c.unfailed g = ⟨0, 0, 0, if c.isHit g then 1 else 0, 0, fun _ => 0⟩ := by
  unfold unfailed hasSent findFails documents?
  rw [h.1, h.2]
  rfl

/-- A call adds its failure, and what it adds apart from that. -/
theorem of_singleton : Tally.of g 0 [c] = c.unfailed g
    + ((c.failure? g.site).elim 0 fun e => .ofEvent (.callFailure e.category)) := by
  have hcount (p : Call World → Bool) : [c].countP p = if p c then 1 else 0 :=
    List.countP_singleton ..
  have hfailures (category : String) : [c].countP (fun d => d.failsWith g category)
      = ((c.failure? g.site).elim 0 fun e => Tally.ofEvent (.callFailure e.category)).callFailures
          category := by
    rw [hcount, failsWith]
    cases c.failure? g.site with
    | none => rfl
    | some e => simp only [Option.any_some, beq_iff_eq, Option.elim_some, Tally.ofEvent]
  -- A failure adds to nothing else.
  ext category
  · cases c.failure? g.site <;> exact hcount _
  · cases c.failure? g.site <;> exact hcount _
  · cases c.failure? g.site <;> exact List.sum_singleton
  · cases c.failure? g.site <;> exact hcount _
  · cases c.failure? g.site <;> rfl
  · exact (hfailures category).trans (Nat.zero_add _).symm

end Call

namespace CallSite

variable {g : Wiring} {c : Call World}

/-- A failure is counted after everything else. -/
theorem world_invokeState :
    (g.site.invokeState c.function c.terms c.state).world
      = (c.failure? g.site).elim (g.site.carryOut c.function c.state (c.plan g)).2.world
          fun e => g.site.record (.callFailure e.category)
            (g.site.carryOut c.function c.state (c.plan g)).2.world := by
  cases ha : g.site.invokeAnswer c.function c.terms c.state with
  | ok t =>
    rw [invokeState_of_ok ha, Call.failure?_eq_none.mpr ⟨t, ha⟩]
    rfl
  | error e =>
    rw [invokeState_of_error ha, Call.failure?_eq_some.mpr ha]
    rfl

/-- What a run leaves of the world is what the function leaves of it. -/
theorem world_carryOut_run (context : CallContext) (args : List Value) (key : Option String) :
    (g.site.carryOut c.function c.state (.run context args key)).2.world
      = (c.function.run context args c.state.world).2 := by
  simp only [carryOut, runEncoded_eq]
  cases encoded c.function.signature (c.function.run context args c.state.world).1 <;> rfl

/-- What a run of a function adds. -/
theorem counts_run (hfunction : g.Admits c.function) (hpunctual : c.Punctual g)
    (hw : g.HasCounters c.state.world) {context : CallContext} {args : List Value}
    {key : Option String} (hplan : c.plan g = .run context args key) :
    World.Counts g (c.unfailed g) c.state.world (c.function.run context args c.state.world).2 := by
  have hhit : c.isHit g = false := by
    unfold Call.isHit
    rw [hplan]
  have hunsent (h : c.sent? g = none ∧ c.ending? g = none) : c.unfailed g = 0 := by
    rw [Call.unfailed_of_unsent h, hhit]
    rfl
  rcases hfunction with hfunction | ⟨hname, hview⟩
  · obtain ⟨o, ho⟩ :
      ∃ o, o = Query.call g.limits context.thread args (c.setting g context) := ⟨_, rfl⟩
    have hrun : (c.function.run context args c.state.world).2
        = c.state.world.settle g.connector g.bridge o.request o.event o.elapsed := by
      rw [hfunction, ho]
      rfl
    rw [hrun]
    rcases Call.query_cases hfunction hpunctual hplan with
      ⟨⟨e, he⟩, h⟩ | ⟨r, e, nanos, hsent, hending, hevent⟩
    · have hevent : o.event = none := by
        rw [ho, he]
        rfl
      rw [hunsent h, hevent]
      refine World.counts_zero hw ?_
      unfold Wiring.view
      rw [World.metrics_settle_none]
    · have hone : c.unfailed g = .ofEvent (.query nanos e.documents?) := by
        unfold Call.unfailed Call.hasSent Call.findFails Call.documents?
        rw [hsent, hending, hhit]
        rfl
      rw [← ho] at hevent
      rw [hone, hevent]
      exact World.counts_event hw _ fun k => World.metrics_settle ..
  · -- A function of another name starts no query.
    rw [hunsent (Call.unsent_of_query? (if_neg hname))]
    exact World.counts_zero hw (hview context args c.state.world)

/-- What a plan adds. -/
theorem counts_carryOut (hfunction : g.Admits c.function) (hpunctual : c.Punctual g)
    (hw : g.HasCounters c.state.world) : World.Counts g (c.unfailed g) c.state.world
      (g.site.carryOut c.function c.state (c.plan g)).2.world := by
  cases hplan : c.plan g with
  | refuse e =>
    rw [Call.unfailed_of_unsent (Call.unsent_of_plan (by rw [hplan]; rfl)), Call.isHit, hplan]
    exact World.counts_zero hw rfl
  | reuse v =>
    rw [Call.unfailed_of_unsent (Call.unsent_of_plan (by rw [hplan]; rfl)), Call.isHit, hplan]
    exact World.counts_event hw .memoHit fun k => rfl
  | run context args key =>
    rw [world_carryOut_run]
    exact counts_run hfunction hpunctual hw hplan

/-- **Each call adds its own tally.** -/
theorem counts_invokeState (hfunction : g.Admits c.function) (hpunctual : c.Punctual g)
    (hw : g.HasCounters c.state.world) : World.Counts g (.of g 0 [c]) c.state.world
      (g.site.invokeState c.function c.terms c.state).world := by
  have hcarried := counts_carryOut hfunction hpunctual hw
  rw [Call.of_singleton, world_invokeState]
  refine hcarried.trans ?_
  cases c.failure? g.site with
  | none => exact World.counts_zero hcarried.hasCounters rfl
  | some e => exact World.counts_event hcarried.hasCounters (.callFailure e.category) fun k => rfl

end CallSite

end PolicyLookup
