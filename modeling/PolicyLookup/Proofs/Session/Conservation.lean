/-
  PolicyLookup.Proofs.Session.Conservation — the counters tell what has happened.

  As long as queries are made only through the evaluations of one host, the counters of the bridge
  and of the host grow by the tally of the host's life: of its evaluations and of all their calls.
  Every query is a memo hit, a failure before the store, or a find; a find has failed or has
  returned documents; so the counters balance, whatever the stores and the signals did and whatever
  became of the documents.

    * `counts_follow`, `counts_live` — a script, and one activity of a host.
    * `counts_liveAll` — the whole life of a host.
    * `conservation` — the main result.
-/

import PolicyLookup.Proofs.Host.Life
import PolicyLookup.Proofs.Session.Tally

namespace PolicyLookup

/-! ## §1. Scripts. -/

namespace CallSite

variable {g : Wiring} {α : Type} {functions : List (ExternalFunction World)}

/-- **The calls of a script add their tallies.** -/
theorem counts_follow (hfunctions : ∀ f ∈ functions, g.Admits f) (script : Script World α) :
    ∀ {s : CallState World}, script.Keeps g.view → g.HasCounters s.world →
      (∀ c ∈ g.site.calls functions script s, c.Punctual g) →
      World.Counts g (.of g 0 (g.site.calls functions script s)) s.world
        (g.site.follow functions script s).2.world := by
  induction script with
  | done a =>
    intro s _ hw _
    exact World.counts_zero hw rfl
  | meanwhile change next ih =>
    intro s hscript hw hpunctual
    obtain ⟨hchange, hnext⟩ := hscript
    have hquiet : World.Counts g (.of g 0 []) s.world (change s.world) :=
      World.counts_zero hw (hchange s.world)
    have htotal := hquiet.trans (ih hnext hquiet.hasCounters hpunctual)
    rw [← Tally.of_append] at htotal
    exact htotal
  | call function terms next ih =>
    intro s hscript hw hpunctual
    cases hf : find? functions function with
    | none =>
      simp only [calls, follow, hf] at hpunctual ⊢
      exact ih none (hscript none) hw hpunctual
    | some f =>
      -- The tally of the call and that of all calls after it.
      rw [calls_call hf] at hpunctual ⊢
      rw [follow_call hf]
      have hfirst : World.Counts g (.of g 0 [⟨f, terms, s⟩]) s.world
          (g.site.invokeState f terms s).world :=
        counts_invokeState (c := ⟨f, terms, s⟩) (hfunctions f (List.mem_of_find?_eq_some hf))
          (hpunctual _ (.head _)) hw
      have htotal := hfirst.trans (ih _ (hscript _) hfirst.hasCounters
        fun c hc => hpunctual c (.tail _ hc))
      rw [← Tally.of_append] at htotal
      exact htotal

end CallSite

/-! ## §2. The life of a host. -/

/-- The activity brings no function that is not admitted, and apart from its calls leaves the
counters alone. -/
def Wiring.Suits (g : Wiring) : Host.Activity World → Prop
  | .prepare (.register f) _ => g.Admits f
  | .prepare _ _ => True
  | .evaluate _ _ script => script.Keeps g.view
  | .meanwhile change => ∀ w, g.view (change w) = g.view w

namespace Host

/-- An idle host that makes its calls at the site, and has no function that is not admitted. -/
structure Wired (g : Wiring) (h : Host World) : Prop where
  site : h.site = g.site
  isIdle : h.slot.IsIdle
  functions : ∀ f ∈ h.functions, g.Admits f

variable {g : Wiring} {s : Host World × World} {a : Activity World}
  {activities : List (Activity World)}

theorem Wired.live (h : Wired g s.1) (ha : g.Suits a) : Wired g (Host.live s a).1 where
  site := (site_live a).trans h.site
  isIdle := isIdle_live a h.isIdle
  functions := by
    intro f hf
    rcases functions_live a hf with hf | ⟨hop, rfl⟩
    · exact h.functions f hf
    · exact ha

/-- **An evaluation adds itself and its calls.** -/
theorem counts_evaluateScript {h : Host World} {w : World} (hwired : Wired g h)
    (signal : SignalId) (thread : Thread) {script : Script World (Except EvaluationFault Term)}
    (hscript : script.Keeps g.view) (hw : g.HasCounters w)
    (hpunctual : ∀ c ∈ h.history signal thread script w, c.Punctual g) :
    World.Counts g (.of g 1 (h.history signal thread script w)) w
      (h.evaluateScript signal thread script w).2.2 := by
  rw [evaluateScript_world hwired.isIdle]
  rw [history_of_isIdle hwired.isIdle] at hpunctual ⊢
  unfold closing opening at *
  rw [hwired.site] at hpunctual ⊢
  -- The evaluation is reported before its script begins.
  have hopen : World.Counts g (.of g 1 []) w (g.site.record .evaluation w) :=
    World.counts_event hw .evaluation fun k => rfl
  have htotal := hopen.trans
    (CallSite.counts_follow hwired.functions script hscript hopen.hasCounters hpunctual)
  rw [← Tally.of_append] at htotal
  exact htotal

theorem counts_live (hwired : Wired g s.1) (ha : g.Suits a) (hw : g.HasCounters s.2)
    (hpunctual : ∀ c ∈ callsOf s a, c.Punctual g) :
    World.Counts g (.of g (if a.isEvaluation then 1 else 0) (callsOf s a)) s.2 (live s a).2 := by
  cases a with
  | prepare op hop => exact World.counts_zero hw rfl
  | evaluate signal thread script =>
    exact counts_evaluateScript hwired signal thread ha hw hpunctual
  | meanwhile change => exact World.counts_zero hw (ha s.2)

/-- **The life of a host adds its evaluations and all their calls.** -/
theorem counts_liveAll (hwired : Wired g s.1) (hactivities : ∀ a ∈ activities, g.Suits a)
    (hw : g.HasCounters s.2) (hpunctual : ∀ c ∈ log s activities, c.Punctual g) :
    World.Counts g (.of g (activities.countP Activity.isEvaluation) (log s activities)) s.2
      (liveAll s activities).2 := by
  induction activities generalizing s with
  | nil => exact World.counts_zero hw rfl
  | cons a rest ih =>
    obtain ⟨hnow, hlater⟩ := List.forall_mem_append.mp hpunctual
    obtain ⟨ha, hrest⟩ := List.forall_mem_cons.mp hactivities
    have hfirst := counts_live hwired ha hw hnow
    have htotal := hfirst.trans (ih (hwired.live ha) hrest hfirst.hasCounters hlater)
    rw [← Tally.of_append, Nat.add_comm, ← List.countP_cons] at htotal
    exact htotal

/-- The calls of an activity are calls of admitted functions, and find results only that have a
term. -/
theorem admits_and_presentable_of_mem_callsOf (hwired : Wired g s.1) {c : Call World}
    (hc : c ∈ callsOf s a) : g.Admits c.function ∧ c.state.slot.Presentable := by
  cases a with
  | prepare op hop => cases hc
  | meanwhile change => cases hc
  | evaluate signal thread script =>
    have hcall : c ∈ s.1.site.calls s.1.functions script (s.1.opening signal thread s.2) := by
      rw [← history_of_isIdle hwired.isIdle]
      exact hc
    have hfound := CallSite.find?_name_of_mem_calls s.1.site script _ c hcall
    have hopened : (s.1.opening signal thread s.2).slot.Presentable := by
      intro key v hv
      cases hv
    exact ⟨hwired.functions _ (List.mem_of_find?_eq_some hfound),
      CallSite.presentable_of_mem_calls hopened hcall⟩

theorem admits_and_presentable_of_mem_log (hwired : Wired g s.1)
    (hactivities : ∀ a ∈ activities, g.Suits a) {c : Call World} (hc : c ∈ log s activities) :
    g.Admits c.function ∧ c.state.slot.Presentable := by
  induction activities generalizing s with
  | nil => cases hc
  | cons a rest ih =>
    obtain ⟨ha, hrest⟩ := List.forall_mem_cons.mp hactivities
    rcases List.mem_append.mp hc with hc | hc
    · exact admits_and_presentable_of_mem_callsOf hwired hc
    · exact ih (hwired.live ha) hrest hc

end Host

/-! ## §3. Queries among the calls. -/

/-- The calls of the function for queries. -/
def queriesIn (calls : List (Call World)) : List (Call World) :=
  calls.filter fun c => c.name = Query.signature.name

namespace Call

variable {g : Wiring} {calls : List (Call World)}

theorem function_of_mem_queriesIn {c : Call World} (hc : c ∈ queriesIn calls)
    (hadmits : g.Admits c.function) : c.function = g.function := by
  have hname : c.name = Query.signature.name := by simpa using (List.mem_filter.mp hc).2
  rcases hadmits with hfunction | ⟨hother, -⟩
  · exact hfunction
  · exact absurd hname hother

theorem hasSent_of_name_ne (c : Call World) (h : c.name ≠ Query.signature.name) :
    c.hasSent g = false := by
  unfold hasSent
  rw [(unsent_of_query? (if_neg h)).1]
  rfl

theorem findFails_of_name_ne (c : Call World) (h : c.name ≠ Query.signature.name) :
    c.findFails g = false := by
  unfold findFails
  rw [(unsent_of_query? (if_neg h)).2]
  rfl

theorem documents_of_name_ne (c : Call World) (h : c.name ≠ Query.signature.name) :
    (c.documents? g).getD 0 = 0 := by
  unfold documents?
  rw [(unsent_of_query? (if_neg h)).2]
  rfl

/-- What is true of queries only is counted among the queries. -/
theorem countP_queriesIn {p : Call World → Bool}
    (hp : ∀ c : Call World, c.name ≠ Query.signature.name → p c = false) :
    (queriesIn calls).countP p = calls.countP p := by
  unfold queriesIn
  rw [List.countP_filter]
  refine List.countP_congr fun c _ => ?_
  by_cases hname : c.name = Query.signature.name
  · simp [hname]
  · simp [hname, hp c hname]

theorem sum_queriesIn {f : Call World → Nat}
    (hf : ∀ c : Call World, c.name ≠ Query.signature.name → f c = 0) :
    ((queriesIn calls).map f).sum = (calls.map f).sum := by
  induction calls with
  | nil => rfl
  | cons c rest ih =>
    unfold queriesIn at ih ⊢
    rw [List.filter_cons, List.map_cons, List.sum_cons, ← ih]
    by_cases hname : c.name = Query.signature.name
    · simp [hname]
    · simp [hname, hf c hname]

/-- Calls that are each exactly one of three things are counted by these. -/
theorem length_eq_countP {p q r : Call World → Bool}
    (h : ∀ c ∈ calls, (p c).toNat + (q c).toNat + (r c).toNat = 1) :
    calls.length = calls.countP p + calls.countP q + calls.countP r := by
  induction calls with
  | nil => rfl
  | cons c rest ih =>
    obtain ⟨hc, hrest⟩ := List.forall_mem_cons.mp h
    rw [List.length_cons, ih hrest, List.countP_cons, List.countP_cons, List.countP_cons]
    revert hc
    cases p c <;> cases q c <;> cases r c <;> simp <;> omega

theorem countP_eq_add {p q r : Call World → Bool}
    (h : ∀ c ∈ calls, (p c).toNat = (q c).toNat + (r c).toNat) :
    calls.countP p = calls.countP q + calls.countP r := by
  induction calls with
  | nil => rfl
  | cons c rest ih =>
    obtain ⟨hc, hrest⟩ := List.forall_mem_cons.mp h
    rw [List.countP_cons, List.countP_cons, List.countP_cons, ih hrest]
    revert hc
    cases p c <;> cases q c <;> cases r c <;> simp <;> omega

end Call

/-! ## §4. Conservation. -/

namespace Host

variable {g : Wiring} {h : Host World} {w : World} {activities : List (Activity World)}

/-- **The counters balance.**  Let a host be given functions, policies and data, let it evaluate
whatever its engine makes of that, as often as it likes, and let the stores, the connections and the
signals change at any time; but let nobody else touch the counters, and let a signal fire between
calls or while a find is running.  Then

* every query is exactly one of three things: it reuses a kept result, fails before a find has been
  sent, or sends a find;
* a query counts as one for the store exactly if it has sent a find, as a failure of the store
  exactly if that ended with an error of the store, at the deadline or by the signal, and else
  counts the documents that the find returned, whatever became of them;
* every call that reuses a result counts as one memo hit, every call that answers an error as one
  failure of its category, and every evaluation as one evaluation;
* so the queries are the memo hits among them, their early failures and the counted finds, and
  the counted finds are the failed ones and those that returned documents. -/
theorem conservation (hwired : Wired g h) (hactivities : ∀ a ∈ activities, g.Suits a)
    (hcounters : g.HasCounters w) (hpunctual : ∀ c ∈ log (h, w) activities, c.Punctual g) :
    let calls := log (h, w) activities
    let queries := queriesIn calls
    let w' := (liveAll (h, w) activities).2
    (∀ c ∈ queries, (c.isHit g).toNat + (c.failsEarly g).toNat + (c.hasSent g).toNat = 1) ∧
    (w'.counters g.bridge).storeQueries
      = (w.counters g.bridge).storeQueries + queries.countP (·.hasSent g) ∧
    (w'.counters g.bridge).storeFailures
      = (w.counters g.bridge).storeFailures + queries.countP (·.findFails g) ∧
    (w'.counters g.bridge).documentsReturned
      = (w.counters g.bridge).documentsReturned
        + (queries.map fun c => (c.documents? g).getD 0).sum ∧
    (w'.counters g.host).memoHits = (w.counters g.host).memoHits + calls.countP (·.isHit g) ∧
    (∀ category, (w'.counters g.host).failuresOf category
      = (w.counters g.host).failuresOf category + calls.countP (·.failsWith g category)) ∧
    (w'.counters g.host).evaluations
      = (w.counters g.host).evaluations + activities.countP Activity.isEvaluation ∧
    queries.length + (w.counters g.bridge).storeQueries
      = queries.countP (·.isHit g) + queries.countP (·.failsEarly g)
        + (w'.counters g.bridge).storeQueries ∧
    ((∀ c ∈ calls, c.name = Query.signature.name) →
      calls.length + (w.counters g.host).memoHits + (w.counters g.bridge).storeQueries
        = (w'.counters g.host).memoHits + calls.countP (·.failsEarly g)
          + (w'.counters g.bridge).storeQueries) ∧
    (w'.counters g.bridge).storeQueries + (w.counters g.bridge).storeFailures
      = (w.counters g.bridge).storeQueries + (w'.counters g.bridge).storeFailures
        + queries.countP fun c => (c.documents? g).isSome := by
  intro calls queries w'
  have hcounts : World.Counts g (.of g (activities.countP Activity.isEvaluation) calls) w w' :=
    counts_liveAll (s := (h, w)) hwired hactivities hcounters hpunctual
  -- A query is run by the one function that has its name.
  have hcall : ∀ c ∈ queries,
      c.function = g.function ∧ c.Punctual g ∧ c.state.slot.Presentable := by
    intro c hc
    have hlog : c ∈ calls := List.mem_of_mem_filter hc
    obtain ⟨hadmits, hslot⟩ :=
      admits_and_presentable_of_mem_log (s := (h, w)) hwired hactivities hlog
    exact ⟨Call.function_of_mem_queriesIn hc hadmits, hpunctual c hlog, hslot⟩
  have hone : ∀ c ∈ queries,
      (c.isHit g).toNat + (c.failsEarly g).toNat + (c.hasSent g).toNat = 1 := by
    intro c hc
    obtain ⟨hfunction, hpunctual, hslot⟩ := hcall c hc
    exact Call.hit_or_early_or_sent hfunction hpunctual hslot
  -- Only queries send finds, so to count among the queries is to count among all calls.
  have hqueries : (w'.counters g.bridge).storeQueries
      = (w.counters g.bridge).storeQueries + queries.countP (·.hasSent g) := by
    rw [Call.countP_queriesIn Call.hasSent_of_name_ne]
    exact hcounts.storeQueries
  have hfailures : (w'.counters g.bridge).storeFailures
      = (w.counters g.bridge).storeFailures + queries.countP (·.findFails g) := by
    rw [Call.countP_queriesIn Call.findFails_of_name_ne]
    exact hcounts.storeFailures
  have hlength : queries.length = queries.countP (·.isHit g) + queries.countP (·.failsEarly g)
      + queries.countP (·.hasSent g) := Call.length_eq_countP hone
  have hended : queries.countP (·.hasSent g) = queries.countP (·.findFails g)
      + queries.countP fun c => (c.documents? g).isSome :=
    Call.countP_eq_add fun c hc => Call.failed_or_returned (hcall c hc).1 (hcall c hc).2.1
  refine ⟨hone, hqueries, hfailures, ?_, hcounts.memoHits, hcounts.callFailures,
    hcounts.evaluations, by omega, fun hall => ?_, by omega⟩
  · rw [Call.sum_queriesIn Call.documents_of_name_ne]
    exact hcounts.documentsReturned
  · have hsame : queries = calls := List.filter_eq_self.mpr fun c hc => decide_eq_true (hall c hc)
    have hhits : (w'.counters g.host).memoHits
        = (w.counters g.host).memoHits + calls.countP (·.isHit g) := hcounts.memoHits
    rw [hsame] at hlength hqueries
    omega

/-- Where no signal is to fire by itself, none is due. -/
theorem punctual_of_alarms {c : Call World} (h : c.state.world.signals.alarms = []) :
    c.Punctual g := by
  intro context _ _ hdue
  have hnone : c.state.world.signals.due? context.signal = none := by
    unfold Signals.due?
    rw [h]
    rfl
  unfold Call.setting World.setting at hdue
  simp only [hnone] at hdue
  cases hdue

/-- An engine that asks for users, one after the other. -/
def asking (ids : List Rat) : Script World (Except EvaluationFault Term) :=
  ids.foldr (fun id next => .call "mongodb.query" (userTerms id) fun _ => next) (.done (.ok .null))

/-- How `inquiring` is wired. -/
def single : Wiring := ⟨0, 0, 0, default⟩

/-- Asks for a user twice; then the signal fires, and another one is asked for. -/
def interrupted : List (Activity World) :=
  [.evaluate 0 .plain (asking [1, 1]),
    .meanwhile fun w => { w with signals := w.signals.fire 0 },
    .evaluate 0 .plain (asking [2])]

theorem conservation_interrupted :
    let s := (inquiring, stocked 0 0 [])
    let w' := (liveAll s interrupted).2
    Wired single s.1 ∧ (∀ a ∈ interrupted, single.Suits a) ∧ single.HasCounters s.2
      ∧ (∀ c ∈ log s interrupted, c.Punctual single)
      ∧ (w'.counters 0).storeQueries = 1 ∧ (w'.counters 0).documentsReturned = 1
      ∧ (w'.counters 0).memoHits = 1 ∧ (w'.counters 0).failuresOf "query" = 1
      ∧ (w'.counters 0).evaluations = 2 := by
  have hwired : Wired single inquiring :=
    ⟨rfl, rfl, fun f hf => Or.inl (List.mem_singleton.mp hf)⟩
  have hasking : ∀ ids, (asking ids).Keeps single.view := by
    intro ids
    induction ids with
    | nil => exact trivial
    | cons id rest ih => exact fun _ => ih
  have hactivities : ∀ a ∈ interrupted, single.Suits a := by
    intro a ha
    rcases List.mem_cons.mp ha with rfl | ha
    · exact hasking _
    rcases List.mem_cons.mp ha with rfl | ha
    · exact fun _ => rfl
    obtain rfl := List.mem_singleton.mp ha
    exact hasking _
  have hcounters : single.HasCounters (stocked 0 0 []) := ⟨rfl, rfl⟩
  obtain ⟨halarms, hsent, hreturned, hreused, hfailed⟩ :
      (∀ c ∈ log (inquiring, stocked 0 0 []) interrupted, c.state.world.signals.alarms = []) ∧
      (queriesIn (log (inquiring, stocked 0 0 []) interrupted)).countP (·.hasSent single) = 1 ∧
      ((queriesIn (log (inquiring, stocked 0 0 []) interrupted)).map fun c =>
        (c.documents? single).getD 0).sum = 1 ∧
      (log (inquiring, stocked 0 0 []) interrupted).countP (·.isHit single) = 1 ∧
      (log (inquiring, stocked 0 0 []) interrupted).countP (·.failsWith single "query") = 1 := by
    decide +kernel
  have hpunctual : ∀ c ∈ log (inquiring, stocked 0 0 []) interrupted, c.Punctual single :=
    fun c hc => punctual_of_alarms (halarms c hc)
  obtain ⟨-, hqueries, -, hdocuments, hhits, hfailures, hevaluations, -⟩ :=
    conservation hwired hactivities hcounters hpunctual
  exact ⟨hwired, hactivities, hcounters, hpunctual, hqueries.trans (congrArg _ hsent),
    hdocuments.trans (congrArg _ hreturned), hhits.trans (congrArg _ hreused),
    (hfailures "query").trans (congrArg _ hfailed), hevaluations⟩

end Host

end PolicyLookup
