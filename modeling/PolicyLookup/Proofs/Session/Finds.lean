/-
  PolicyLookup.Proofs.Session.Finds — what an evaluation that only queries costs.

  A query that brings a result has sent exactly one find and is counted exactly once, whatever the
  store, the signal and the clock did; a call that reuses a result sends nothing and is a memo hit.
  Summed up over an evaluation without failures there are as many finds as runs of the function,
  and as many memo hits as other calls (`costs_follow`).  The runs are the distinct calls.

    * `costs_invokeState` — a call that succeeds is one find or one memo hit.
    * `ncard_asked` — there are as many runs as distinct calls.
    * `evaluateScript_finds` — a whole evaluation.
-/

import Mathlib.Data.Set.Card
import PolicyLookup.Proofs.Evaluation.Distinct
import PolicyLookup.Proofs.Evaluation.FirstFailure
import PolicyLookup.Proofs.Host.Independence
import PolicyLookup.Proofs.Query.Sent
import PolicyLookup.Proofs.Session.Outlook

namespace PolicyLookup

/-! ## §1. Finds and counters of a world. -/

namespace World

/-- How many finds stores have received so far. -/
def finds (w : World) : Nat := (w.stores.entries.map fun s => s.received.length).sum + w.sent.length

/-- The counters of a number. -/
def counters (w : World) (k : Nat) : Metrics := (w.metrics.get? k).getD .zero

/-- There are counters of a number. -/
def HasCounters (w : World) (k : Nat) : Prop := (w.metrics.get? k).isSome = true

variable {w : World} {k : Nat}

theorem sum_received_modify {stores : List StoreRecord} {i : Nat} (hi : i < stores.length)
    (r : FindRequest) :
    ((stores.modify i fun s => { s with received := s.received ++ [r] }).map
        fun s => s.received.length).sum
      = (stores.map fun s => s.received.length).sum + 1 := by
  induction stores generalizing i with
  | nil => cases hi
  | cons s rest ih =>
    cases i with
    | zero =>
      simp only [List.modify_zero_cons, List.map_cons, List.sum_cons, List.length_append,
        List.length_singleton]
      omega
    | succ i =>
      simp only [List.modify_succ_cons, List.map_cons, List.sum_cons,
        ih (Nat.lt_of_succ_lt_succ hi)]
      omega

/-- The store that is meant is there. -/
def Has (w : World) : StoreRef → Prop
  | .memory i => i < w.stores.entries.length
  | .remote _ => True

/-- A store that is there receives a find as one more. -/
theorem finds_receive_of_has {ref : StoreRef} (r : FindRequest) (h : w.Has ref) :
    (w.receive r ref).finds = w.finds + 1 := by
  cases ref with
  | memory i =>
    unfold receive finds
    simp only [Table.modify, sum_received_modify h]
    omega
  | remote address =>
    unfold receive finds
    simp only [List.length_append, List.length_singleton]
    omega

/-- A store that answers has received the find. -/
theorem finds_receive {ref : StoreRef} {r : FindRequest} {ds : List Document}
    (h : ((w.store ref).find r).answer = .ok ds) : (w.receive r ref).finds = w.finds + 1 := by
  apply finds_receive_of_has
  cases ref with
  | memory i =>
    by_contra hlength
    have hnone : w.stores.get? i = none := List.getElem?_eq_none (Nat.le_of_not_lt hlength)
    unfold store at h
    simp only [hnone] at h
    cases h
  | remote address => trivial

theorem counters_record (h : w.HasCounters k) (i : Nat) (event : Metrics.Event) :
    (w.record i event).counters k
      = if i = k then (w.counters k).record event else w.counters k := by
  obtain ⟨m, hm⟩ := Option.isSome_iff_exists.mp h
  unfold counters
  rw [get?_record, hm]
  split <;> rfl

theorem hasCounters_record (h : w.HasCounters k) (i : Nat) (event : Metrics.Event) :
    (w.record i event).HasCounters k := by
  unfold HasCounters at h ⊢
  rw [get?_record]
  split
  · rw [Option.isSome_map, h]
  · exact h

/-- From one world to another so many runs of queries have each sent one find and been counted
under the number `i`, and so many memo hits have been counted under `m`, but no failure. -/
structure Costs (i m runs hits : Nat) (w w' : World) : Prop where
  finds : w'.finds = w.finds + runs
  storeQueries : (w'.counters i).storeQueries = (w.counters i).storeQueries + runs
  memoHits : (w'.counters m).memoHits = (w.counters m).memoHits + hits
  callFailures : ∀ k, k = i ∨ k = m → (w'.counters k).callFailures = (w.counters k).callFailures
  hasCounters : ∀ k, k = i ∨ k = m → w'.HasCounters k

variable {i m : Nat}

theorem Costs.trans {runs hits runs' hits' : Nat} {w v u : World} (h : Costs i m runs hits w v)
    (h' : Costs i m runs' hits' v u) : Costs i m (runs + runs') (hits + hits') w u where
  finds := by rw [h'.finds, h.finds, Nat.add_assoc]
  storeQueries := by rw [h'.storeQueries, h.storeQueries, Nat.add_assoc]
  memoHits := by rw [h'.memoHits, h.memoHits, Nat.add_assoc]
  callFailures := fun k hk => (h'.callFailures k hk).trans (h.callFailures k hk)
  hasCounters := h'.hasCounters

/-- A world in which finds and counters are what they were. -/
theorem costs_zero {w w' : World} (hw : ∀ k, k = i ∨ k = m → w.HasCounters k)
    (hfinds : w'.finds = w.finds) (hi : w'.metrics.get? i = w.metrics.get? i)
    (hm : w'.metrics.get? m = w.metrics.get? m) : Costs i m 0 0 w w' where
  finds := hfinds
  storeQueries := by
    unfold counters
    rw [hi, Nat.add_zero]
  memoHits := by
    unfold counters
    rw [hm, Nat.add_zero]
  callFailures := by
    rintro k (rfl | rfl)
    · unfold counters
      rw [hi]
    · unfold counters
      rw [hm]
  hasCounters := by
    rintro k (rfl | rfl)
    · unfold HasCounters
      rw [hi]
      exact hw k (Or.inl rfl)
    · unfold HasCounters
      rw [hm]
      exact hw k (Or.inr rfl)

/-- An event that changes of these counters at most the memo hits. -/
theorem costs_record {event : Metrics.Event} {hits : Nat}
    (hqueries : ∀ c : Metrics, (c.record event).storeQueries = c.storeQueries)
    (hhits : ∀ c : Metrics, (c.record event).memoHits = c.memoHits + hits)
    (hfailures : ∀ c : Metrics, (c.record event).callFailures = c.callFailures)
    (hw : ∀ k, k = i ∨ k = m → w.HasCounters k) : Costs i m 0 hits w (w.record m event) where
  finds := rfl
  storeQueries := by
    rw [counters_record (hw i (Or.inl rfl)), Nat.add_zero]
    split
    · exact hqueries _
    · rfl
  memoHits := by rw [counters_record (hw m (Or.inr rfl)), if_pos rfl, hhits]
  callFailures := by
    intro k hk
    rw [counters_record (hw k hk)]
    split
    · exact hfailures _
    · rfl
  hasCounters := fun k hk => hasCounters_record (hw k hk) m event

theorem costs_memoHit (hw : ∀ k, k = i ∨ k = m → w.HasCounters k) :
    Costs i m 0 1 w (w.record m .memoHit) :=
  costs_record (fun _ => rfl) (fun _ => rfl) (fun _ => rfl) hw

theorem costs_evaluation (hw : ∀ k, k = i ∨ k = m → w.HasCounters k) :
    Costs i m 0 0 w (w.record m .evaluation) :=
  costs_record (fun _ => rfl) (fun _ => rfl) (fun _ => rfl) hw

/-- What a query leaves of the counters is what it reports. -/
theorem metrics_settle (w : World) (connector i k : Nat) (request : Option FindRequest)
    (event : Metrics.Event) (elapsed : Nat) :
    (w.settle connector i request (some event) elapsed).metrics.get? k
      = (w.record i event).metrics.get? k := by
  unfold settle
  rcases request with _ | r
  · rfl
  · cases w.connection connector with
    | none => rfl
    | some c =>
      obtain ⟨ref, database⟩ := c
      cases ref <;> rfl

/-- A query that has been answered is one find. -/
theorem costs_settle {connector : Nat} {c : Connection StoreRef} {r : FindRequest}
    {ds : List Document} (hw : ∀ k, k = i ∨ k = m → w.HasCounters k)
    (hconnection : w.connection connector = some c)
    (hanswer : ((w.store c.store).find r).answer = .ok ds) (nanos : Nat) (n : Option Nat)
    (elapsed : Nat) :
    Costs i m 1 0 w (w.settle connector i (some r) (some (.query nanos n)) elapsed) := by
  have hcounters : ∀ k, (w.settle connector i (some r) (some (.query nanos n)) elapsed).counters k
      = (w.record i (.query nanos n)).counters k := by
    intro k
    unfold counters
    rw [metrics_settle]
  constructor
  · have hfinds := finds_receive hanswer
    unfold settle
    rw [hconnection]
    exact hfinds
  · rw [hcounters, counters_record (hw i (Or.inl rfl)), if_pos rfl]
    rfl
  · rw [hcounters, counters_record (hw m (Or.inr rfl))]
    split <;> rfl
  · intro k hk
    rw [hcounters, counters_record (hw k hk)]
    split <;> rfl
  · intro k hk
    have h := hasCounters_record (hw k hk) i (.query nanos n)
    unfold HasCounters at h ⊢
    rw [metrics_settle]
    exact h

end World

/-! ## §2. The calls of an evaluation. -/

/-- What happens outside between the steps of a script leaves a quantity as it is. -/
def Script.Keeps {σ α β : Type} (f : σ → β) : Script σ α → Prop
  | .done _ => True
  | .call _ _ next => ∀ r, (next r).Keeps f
  | .meanwhile change next => (∀ w, f (change w) = f w) ∧ next.Keeps f

namespace CallSite

variable {α : Type} {connector i m : Nat} {limits : QueryLimits}

/-- A run of the function for queries that brings a result is one find. -/
theorem costs_runEncoded {context : CallContext} {args : List Value} {w w' : World} {v : Value}
    {t : Term} (hw : ∀ k, k = i ∨ k = m → w.HasCounters k)
    (h : runEncoded ((World.access connector i).function limits) context args w
      = (.ok (v, t), w')) : World.Costs i m 1 0 w w' := by
  obtain ⟨outcome, houtcome⟩ : ∃ outcome, outcome
      = Query.call limits context.thread args (w.setting connector context.signal) := ⟨_, rfl⟩
  have hrun : ((World.access connector i).function limits).run context args w
      = (outcome.result, w.settle connector i outcome.request outcome.event outcome.elapsed) := by
    rw [houtcome]
    rfl
  rw [runEncoded_eq, hrun] at h
  obtain ⟨hencoded, rfl⟩ := Prod.mk.inj h
  cases hresult : outcome.result with
  | error e =>
    simp only [hresult] at hencoded
    cases hencoded
  | ok x =>
    rw [houtcome] at hresult
    obtain ⟨c, r, nanos, n, ds, hconnection, hrequest, hevent, hanswer⟩ :=
      Query.call_eq_ok hresult
    -- The connection of the setting is the one that the connector holds.
    obtain ⟨c', hc', rfl⟩ := Option.map_eq_some_iff.mp hconnection
    rw [← houtcome] at hrequest hevent
    simp only [hrequest, hevent]
    exact World.costs_settle hw hc' hanswer nanos n outcome.elapsed

/-- **A call that succeeds is one find or one memo hit.** -/
theorem costs_invokeState {c : Call World}
    (hfunction : c.function = (World.access connector i).function limits)
    (hw : ∀ k, k = i ∨ k = m → c.state.world.HasCounters k)
    (hsucceeds : c.Succeeds (World.callSite m)) :
    ∃ hits, (c.runs (World.callSite m)).length + hits = 1
      ∧ World.Costs i m (c.runs (World.callSite m)).length hits c.state.world
        ((World.callSite m).invokeState c.function c.terms c.state).world := by
  obtain ⟨t, ht⟩ := hsucceeds
  have hanswer : (World.callSite m).invokeAnswer c.function c.terms c.state = .ok t := ht
  rw [invokeState_of_ok hanswer]
  rw [invokeAnswer_eq] at hanswer
  unfold Call.runs
  cases hp : plan (World.callSite m).digest c.function.signature c.terms c.state.slot with
  | refuse e =>
    rw [hp] at hanswer
    cases hanswer
  | reuse v => exact ⟨1, rfl, World.costs_memoHit hw⟩
  | run context args key =>
    rw [hp] at hanswer
    refine ⟨0, rfl, ?_⟩
    simp only [carryOut] at hanswer ⊢
    cases hr : runEncoded c.function context args c.state.world with
    | mk r w =>
      rw [hr] at hanswer
      cases r with
      | error e => cases hanswer
      | ok x =>
        rw [hfunction] at hr
        exact costs_runEncoded hw hr

/-- **A script whose calls succeed costs one find for each run**, and a memo hit for each other
call. -/
theorem costs_follow (script : Script World α) :
    let functions := [(World.access connector i).function limits]
    let site := World.callSite m
    ∀ {s : CallState World},
      script.Keeps (fun w : World => (w.finds, w.metrics.get? i, w.metrics.get? m)) →
      (∀ k, k = i ∨ k = m → s.world.HasCounters k) →
      (∀ c ∈ site.calls functions script s, c.Succeeds site) →
      ∃ hits, (site.executions functions script s).length + hits
            = (site.calls functions script s).length
        ∧ World.Costs i m (site.executions functions script s).length hits s.world
          (site.follow functions script s).2.world := by
  intro functions site
  induction script with
  | done a =>
    intro s _ hw _
    exact ⟨0, rfl, World.costs_zero hw rfl rfl rfl⟩
  | meanwhile change next ih =>
    intro s hscript hw hsucceed
    obtain ⟨hchange, hnext⟩ := hscript
    obtain ⟨hfinds, hmetrics⟩ := Prod.mk.inj (hchange s.world)
    obtain ⟨hi, hm⟩ := Prod.mk.inj hmetrics
    have hquiet := World.costs_zero hw hfinds hi hm
    obtain ⟨hits, hcount, hcosts⟩ := ih hnext hquiet.hasCounters hsucceed
    refine ⟨hits, hcount, ?_⟩
    have htotal := hquiet.trans hcosts
    rw [Nat.zero_add, Nat.zero_add] at htotal
    exact htotal
  | call function terms next ih =>
    intro s hscript hw hsucceed
    cases hf : find? functions function with
    | none =>
      simp only [executions, calls, follow, hf] at hsucceed ⊢
      exact ih none (hscript none) hw hsucceed
    | some f =>
      have hfunction : f = (World.access connector i).function limits :=
        List.mem_singleton.mp (List.mem_of_find?_eq_some hf)
      rw [calls_call hf] at hsucceed
      obtain ⟨hits, hone, hfirst⟩ : ∃ hits, (Call.runs site ⟨f, terms, s⟩).length + hits = 1
          ∧ World.Costs i m (Call.runs site ⟨f, terms, s⟩).length hits s.world
            (site.invokeState f terms s).world :=
        costs_invokeState (c := ⟨f, terms, s⟩) hfunction hw (hsucceed _ (.head _))
      obtain ⟨hits', hrest, hcosts⟩ := ih _ (hscript _) hfirst.hasCounters
        fun c hc => hsucceed c (.tail _ hc)
      have hexecutions : (site.executions functions (.call function terms next) s).length
          = (Call.runs site ⟨f, terms, s⟩).length
            + (site.executions functions (next (site.invokeAnswer f terms s).toOption)
                (site.invokeState f terms s)).length := by
        unfold executions
        rw [calls_call hf, List.flatMap_cons, List.length_append, List.length_map]
      rw [follow_call hf, calls_call hf, hexecutions, List.length_cons]
      exact ⟨hits + hits', by omega, hfirst.trans hcosts⟩

end CallSite

/-! ## §3. Evaluations that succeed. -/

/-- The collections and filters that are asked for in some calls. -/
def asked (calls : List (Call World)) : Set (String × Mapping) :=
  {p | ∃ c ∈ calls, c.arguments = .ok [.str p.1, .map p.2]}

/-- The run of the function for queries that a collection and a filter stand for. -/
def runOf (p : String × Mapping) : String × List Value :=
  (Query.signature.name, [.str p.1, .map p.2])

theorem injective_runOf : Function.Injective runOf := by
  rintro ⟨collection, filter⟩ ⟨collection', filter'⟩ h
  cases h
  rfl

namespace CallSite

variable {α : Type} {site : CallSite World} {connector i : Nat} {limits : QueryLimits}
  {script : Script World α} {s : CallState World}

/-- The runs are those that the pairs of a collection and a filter stand for. -/
theorem image_asked (hs : ∀ key, s.slot.memoized? key = none)
    (hsucceed : ∀ c ∈ site.calls [(World.access connector i).function limits] script s,
      c.Succeeds site)
    (hfree : CollisionFree site.digest
      (site.calls [(World.access connector i).function limits] script s)) :
    runOf '' asked (site.calls [(World.access connector i).function limits] script s)
      = {e | e ∈ site.executions [(World.access connector i).function limits] script s} := by
  ext ⟨name, args⟩
  show (name, args) ∈ runOf '' asked _ ↔ (name, args) ∈ site.executions _ script s
  rw [mem_executions_iff hs hsucceed hfree]
  constructor
  · rintro ⟨⟨collection, filter⟩, ⟨c, hc, hargs⟩, h⟩
    cases h
    refine ⟨c, hc, ?_, hargs⟩
    unfold Call.name
    rw [function_of_mem_calls hc]
    rfl
  · rintro ⟨c, hc, hname, hargs⟩
    unfold Call.name at hname
    have hquery := hargs
    unfold Call.arguments at hquery
    rw [function_of_mem_calls hc] at hname hquery
    obtain ⟨collection, filter, rfl⟩ := Query.arguments_eq_ok hquery
    exact ⟨(collection, filter), ⟨c, hc, hargs⟩, by rw [← hname]; rfl⟩

/-- **There are as many runs as distinct pairs of a collection and a filter.** -/
theorem ncard_asked (hs : ∀ key, s.slot.memoized? key = none)
    (hsucceed : ∀ c ∈ site.calls [(World.access connector i).function limits] script s,
      c.Succeeds site)
    (hfree : CollisionFree site.digest
      (site.calls [(World.access connector i).function limits] script s)) :
    (asked (site.calls [(World.access connector i).function limits] script s)).ncard
      = (site.executions [(World.access connector i).function limits] script s).length := by
  classical
  have hnodup : (site.executions [(World.access connector i).function limits] script s).Nodup := by
    refine nodup_executions ?_ hsucceed
    intro f hf
    rw [List.mem_singleton.mp hf]
    rfl
  obtain ⟨runs, hruns⟩ :
    ∃ runs, runs = site.executions [(World.access connector i).function limits] script s :=
      ⟨_, rfl⟩
  have himage := image_asked hs hsucceed hfree
  rw [← hruns] at hnodup himage ⊢
  calc (asked (site.calls [(World.access connector i).function limits] script s)).ncard
      = (runOf '' asked (site.calls [(World.access connector i).function limits] script s)).ncard :=
        (Set.ncard_image_of_injective _ injective_runOf).symm
    _ = (runs.toFinset : Set (String × List Value)).ncard := by rw [himage, List.coe_toFinset]
    _ = runs.toFinset.card := Set.ncard_coe_finset _
    _ = runs.length := List.toFinset_card_of_nodup hnodup

end CallSite

namespace Host

variable {α : Type}

/-- An evaluation that ends with a result has found the host idle. -/
theorem isIdle_of_evaluateScript_eq_ok {σ : Type} {h : Host σ} {signal : SignalId}
    {thread : Thread} {script : Script σ (Except EvaluationFault α)} {w : σ} {a : α}
    (hok : (h.evaluateScript signal thread script w).1 = .ok a) : h.slot.IsIdle := by
  by_contra hrunning
  unfold evaluateScript CallSite.evaluate at hok
  rw [Slot.enter_of_isRunning hrunning] at hok
  cases hok

/-- In an evaluation that ends with a result every call succeeds. -/
theorem succeeds_of_evaluateScript_eq_ok {σ : Type} {h : Host σ} {signal : SignalId}
    {thread : Thread} {script : Script σ (Except EvaluationFault α)} {w : σ} {a : α}
    (hok : (h.evaluateScript signal thread script w).1 = .ok a) :
    ∀ c ∈ h.history signal thread script w, c.Succeeds h.site := by
  intro c hc
  rw [evaluateScript_of_isIdle (isIdle_of_evaluateScript_eq_ok hok)] at hok
  cases hfirst : h.site.firstFailure (h.history signal thread script w) with
  | some e =>
    rw [hfirst] at hok
    cases hok
  | none => exact Call.failure?_eq_none.mp (List.findSome?_eq_none_iff.mp hfirst c hc)

/-- **One find for each distinct call.**  Let a host have the function for queries and no other,
and let an evaluation end with a result, whatever the engine called and whatever happened outside,
provided that nobody else sent finds or touched the counters meanwhile.  With a digest that
confuses no two of its calls, the evaluation sent as many finds as there are distinct pairs of a
collection and a filter among its calls, and as many queries were counted; every other call was
counted as a memo hit; and no failure was counted. -/
theorem evaluateScript_finds {h : Host World} {connector i m : Nat} {limits : QueryLimits}
    (hsite : h.site = World.callSite m)
    (hfunctions : h.functions = [(World.access connector i).function limits])
    {signal : SignalId} {thread : Thread} {script : Script World (Except EvaluationFault α)}
    (hscript : script.Keeps fun w => (w.finds, w.metrics.get? i, w.metrics.get? m)) {w : World}
    (hi : w.HasCounters i) (hm : w.HasCounters m) {a : α}
    (hok : (h.evaluateScript signal thread script w).1 = .ok a)
    (hfree : CollisionFree Digest.Blake3.hex (h.history signal thread script w)) :
    let calls := h.history signal thread script w
    let w' := (h.evaluateScript signal thread script w).2.2
    w'.finds = w.finds + (asked calls).ncard
      ∧ (w'.counters i).storeQueries = (w.counters i).storeQueries + (asked calls).ncard
      ∧ (asked calls).ncard ≤ calls.length
      ∧ (w'.counters m).memoHits = (w.counters m).memoHits + (calls.length - (asked calls).ncard)
      ∧ (w'.counters i).callFailures = (w.counters i).callFailures
      ∧ (w'.counters m).callFailures = (w.counters m).callFailures := by
  intro calls w'
  have hidle := isIdle_of_evaluateScript_eq_ok hok
  have hsucceed := succeeds_of_evaluateScript_eq_ok hok
  have hw' : w' = (h.closing signal thread script w).world :=
    evaluateScript_world hidle signal thread script w
  have hcalls : calls = h.site.calls h.functions script (h.opening signal thread w) :=
    history_of_isIdle hidle signal thread script w
  have hw : ∀ k, k = i ∨ k = m → w.HasCounters k := by
    rintro k (rfl | rfl)
    · exact hi
    · exact hm
  obtain ⟨site, functions, engine, slot⟩ := h
  obtain rfl : site = World.callSite m := hsite
  obtain rfl : functions = [(World.access connector i).function limits] := hfunctions
  rw [history_of_isIdle hidle] at hsucceed hfree
  -- The evaluation itself is counted first, and costs nothing of this.
  have hopen := World.costs_evaluation hw
  obtain ⟨hits, hcount, hcosts⟩ :=
    CallSite.costs_follow script hscript hopen.hasCounters hsucceed
  have hncard := CallSite.ncard_asked (fun key => rfl) hsucceed hfree
  rw [← hcalls] at hncard hcount
  rw [← hncard] at hcount
  have htotal : World.Costs i m (asked calls).ncard hits w w' := by
    have h := hopen.trans hcosts
    rw [Nat.zero_add, Nat.zero_add, ← hncard] at h
    rw [hw']
    exact h
  refine ⟨htotal.finds, htotal.storeQueries, by omega, ?_, htotal.callFailures i (Or.inl rfl),
    htotal.callFailures m (Or.inr rfl)⟩
  rw [htotal.memoHits]
  omega

/-- A host that takes queries, and does nothing else. -/
def inquiring : Host World where
  site := World.callSite 0
  functions := [(World.access 0 0).function default]
  engine := .empty
  slot := .empty

/-- The arguments of a query for a user. -/
def userTerms (id : Rat) : List Term := [.str "users", .obj [(.str "id", .num id)]]

/-- The world when all documents are gone. -/
def emptied (w : World) : World :=
  { w with stores := ⟨w.stores.entries.map fun s => { s with contents := .empty }⟩ }

theorem finds_emptied (w : World) : (emptied w).finds = w.finds := by
  unfold emptied World.finds
  rw [List.map_map]
  rfl

/-- An engine that asks for one user twice, and once for another one; meanwhile all documents
go. -/
def insisting : Script World (Except EvaluationFault Nat) :=
  .call "mongodb.query" (userTerms 1) fun _ => .meanwhile emptied <|
    .call "mongodb.query" (userTerms 1) fun _ => .call "mongodb.query" (userTerms 2) fun _ =>
      .done (.ok 7)

theorem evaluateScript_finds_insisting :
    let calls := inquiring.history 0 .plain insisting (stocked 0 0 [])
    (inquiring.evaluateScript 0 .plain insisting (stocked 0 0 [])).2.2.finds = (asked calls).ncard
      ∧ calls.length = 3 ∧ (asked calls).ncard = 2 := by
  intro calls
  have hcalls : ∀ c ∈ calls, c.name = "mongodb.query"
      ∧ (c.arguments = .ok [.str "users", .map [("id", .int 1)]]
        ∨ c.arguments = .ok [.str "users", .map [("id", .int 2)]]) := by
    intro c hc
    rcases List.mem_cons.mp hc with rfl | hc
    · exact ⟨rfl, Or.inl rfl⟩
    rcases List.mem_cons.mp hc with rfl | hc
    · exact ⟨rfl, Or.inl rfl⟩
    obtain rfl := List.mem_singleton.mp hc
    exact ⟨rfl, Or.inr rfl⟩
  have hfree : CollisionFree Digest.Blake3.hex calls := .of_two hcalls (by decide +kernel)
  have hscript : insisting.Keeps fun w => (w.finds, w.metrics.get? 0, w.metrics.get? 0) :=
    fun _ => ⟨fun w => Prod.ext (finds_emptied w) rfl, fun _ _ => trivial⟩
  have hok : (inquiring.evaluateScript 0 .plain insisting (stocked 0 0 [])).1 = .ok 7 := by
    have hsome : (inquiring.evaluateScript 0 .plain insisting (stocked 0 0 [])).1.toOption
        = some 7 := by decide +kernel
    cases hresult : (inquiring.evaluateScript 0 .plain insisting (stocked 0 0 [])).1 with
    | error e =>
      rw [hresult] at hsome
      cases hsome
    | ok n =>
      rw [hresult] at hsome
      rw [Option.some.inj hsome]
  have hcounters : (stocked 0 0 []).HasCounters 0 := rfl
  obtain ⟨hfinds, -⟩ :=
    evaluateScript_finds (h := inquiring) rfl rfl hscript hcounters hcounters hok hfree
  have hnone : (stocked 0 0 []).finds = 0 := rfl
  rw [hnone, Nat.zero_add] at hfinds
  refine ⟨hfinds, rfl, ?_⟩
  rw [← hfinds]
  decide +kernel

end Host

end PolicyLookup
