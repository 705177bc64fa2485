/-
  PolicyLookup.Proofs.Session.Started — queries that are counted and finds that are started.

  A query asks once whether its signal has fired, and then looks at its find; a look asks for the
  signal again, before the store is asked.  So there are four moments at which the signal can fire:
  before the check, between the check and the first look, later, or never.  A query is counted
  unless a check fails.  Its find is started unless a check fails or the signal fires between
  the check and the first look: such a query is counted although no store learns of it.

    * `event_ne_none_iff`, `request_ne_none_iff` — which queries are counted, and which are started.
    * `accounts_takeAll` — the counter against the finds of all stores, over any history.
    * `counted_iff_started` — the main result.
-/

import PolicyLookup.Proofs.Session.Reach

namespace PolicyLookup

namespace Query

/-! ## §1. One query. -/

/-- When the signal of a query fires. -/
inductive Moment where
  /-- Before the query checks it. -/
  | beforeCheck
  /-- After the check, and before the first look at the find. -/
  | beforeFirstLook
  /-- That many milliseconds and one more after the first look: while the find is running, or when
  it has ended. -/
  | afterFirstLook (ms : Nat)
  | never
deriving DecidableEq

/-- The moment at which the signal fires in a setting. -/
def Setting.moment (s : Setting) : Moment :=
  if s.hasFired then .beforeCheck
  else
    match s.firesIn with
    | some 0 => .beforeFirstLook
    | some (ms + 1) => .afterFirstLook ms
    | none => .never

variable {limits : QueryLimits} {collection : String} {filter : Mapping} {s : Setting}

theorem moment_ne_beforeCheck_iff : s.moment ≠ .beforeCheck ↔ s.hasFired = false := by
  unfold Setting.moment
  cases s.hasFired with
  | true => simp
  | false =>
    rcases s.firesIn with _ | _ | ms <;> simp

theorem moment_eq_beforeFirstLook_iff :
    s.moment = .beforeFirstLook ↔ s.hasFired = false ∧ s.firesIn = some 0 := by
  unfold Setting.moment
  cases s.hasFired with
  | true => simp
  | false =>
    rcases s.firesIn with _ | _ | ms <;> simp

theorem run_of_admits (limits : QueryLimits) (filter : Mapping) (h : s.Admits collection)
    (hmoment : s.moment ≠ .beforeCheck) :
    ∃ c, s.connection = some c ∧
      run limits collection filter s = find limits collection filter c s.firesIn := by
  obtain ⟨c, hc⟩ := Option.ne_none_iff_exists'.mp h.connection
  exact ⟨c, hc, run_of_permitted hc h.name (moment_ne_beforeCheck_iff.mp hmoment)⟩

/-- A query that a check keeps back is refused. -/
theorem run_of_not_admits (limits : QueryLimits) (filter : Mapping)
    (h : ¬ (s.Admits collection ∧ s.moment ≠ .beforeCheck)) :
    ∃ e, run limits collection filter s = .refused e := by
  rw [moment_ne_beforeCheck_iff] at h
  exact ⟨_, run_of_not_permitted limits filter h⟩

/-- **A query is counted exactly if it passes its checks**, as one query. -/
theorem event_ne_none_iff : (run limits collection filter s).event ≠ none ↔
    s.Admits collection ∧ s.moment ≠ .beforeCheck := by
  constructor
  · intro hevent
    by_contra hnot
    obtain ⟨e, he⟩ := run_of_not_admits limits filter hnot
    rw [he] at hevent
    exact hevent rfl
  · rintro ⟨hadmits, hmoment⟩
    obtain ⟨c, -, hrun⟩ := run_of_admits limits filter hadmits hmoment
    rw [hrun, find_eq]
    exact Option.some_ne_none _

/-- What is counted is one query. -/
theorem event_eq_query {event : Metrics.Event}
    (h : (run limits collection filter s).event = some event) :
    ∃ nanos n, event = .query nanos n := by
  have hpasses := event_ne_none_iff.mp (Option.ne_none_iff_exists'.mpr ⟨event, h⟩)
  obtain ⟨c, -, hrun⟩ := run_of_admits limits filter hpasses.1 hpasses.2
  rw [hrun, find_eq] at h
  exact ⟨_, _, (Option.some.inj h).symm⟩

/-- **A find is started exactly if the query passes its checks and the signal does not fire between
the check and the first look.** -/
theorem request_ne_none_iff : (run limits collection filter s).request ≠ none ↔
    s.Admits collection ∧ s.moment ≠ .beforeCheck ∧ s.moment ≠ .beforeFirstLook := by
  constructor
  · intro hrequest
    by_cases hpasses : s.Admits collection ∧ s.moment ≠ .beforeCheck
    · refine ⟨hpasses.1, hpasses.2, ?_⟩
      intro hmoment
      obtain ⟨c, -, hrun⟩ := run_of_admits limits filter hpasses.1 hpasses.2
      -- A signal that is ready at the first look keeps the request back.
      rw [hrun, find_eq, (moment_eq_beforeFirstLook_iff.mp hmoment).2] at hrequest
      exact hrequest rfl
    · obtain ⟨e, he⟩ := run_of_not_admits limits filter hpasses
      rw [he] at hrequest
      exact absurd rfl hrequest
  · rintro ⟨hadmits, hcheck, hlook⟩
    obtain ⟨c, hconnection⟩ := Option.ne_none_iff_exists'.mp hadmits.connection
    have hfired := moment_ne_beforeCheck_iff.mp hcheck
    obtain ⟨hsent, -⟩ := request_of_permitted limits filter hconnection hadmits.name hfired
    rw [hsent fun hzero => hlook (moment_eq_beforeFirstLook_iff.mpr ⟨hfired, hzero⟩)]
    exact Option.some_ne_none _

end Query

/-! ## §2. Queries in a world. -/

namespace World

/-- The store of the connection is there. -/
def Linked (w : World) (connector : Nat) : Prop :=
  ∀ c, w.connection connector = some c → w.Has c.store

variable {w : World} {connector i : Nat}

theorem connectors_settle (w : World) (connector i : Nat) (request : Option FindRequest)
    (event : Option Metrics.Event) (elapsed : Nat) :
    (w.settle connector i request event elapsed).connectors = w.connectors ∧
      (w.settle connector i request event elapsed).stores.entries.length
        = w.stores.entries.length := by
  have hreceive : ∀ (r : FindRequest) (ref : StoreRef),
      (w.receive r ref).connectors = w.connectors ∧
        (w.receive r ref).stores.entries.length = w.stores.entries.length := by
    intro r ref
    cases ref with
    | memory j => exact ⟨rfl, List.length_modify _ _ _⟩
    | remote address => exact ⟨rfl, rfl⟩
  unfold settle
  rcases request with _ | r
  · cases event <;> exact ⟨rfl, rfl⟩
  · cases w.connection connector with
    | none => cases event <;> exact ⟨rfl, rfl⟩
    | some c => cases event <;> exact hreceive r c.store

/-- A query leaves connections and stores where they are. -/
theorem Linked.settle (h : w.Linked connector) (i : Nat) (request : Option FindRequest)
    (event : Option Metrics.Event) (elapsed : Nat) :
    (w.settle connector i request event elapsed).Linked connector := by
  obtain ⟨hconnectors, hlength⟩ := connectors_settle w connector i request event elapsed
  intro c hc
  unfold connection at hc
  rw [hconnectors] at hc
  have hhas := h c hc
  unfold Has at hhas ⊢
  cases hstore : c.store with
  | memory j =>
    rw [hstore] at hhas
    simp only at hhas ⊢
    omega
  | remote address => trivial

end World

/-- What a query is asked for. -/
structure Ask where
  limits : QueryLimits
  collection : String
  filter : Mapping
  signal : SignalId

namespace Ask

open Query

/-- What comes of a query that is asked over a connector. -/
def outcome (connector : Nat) (a : Ask) (w : World) : Outcome (List Mapping) :=
  run a.limits a.collection a.filter (w.setting connector a.signal)

/-- The world after it, counted with the given counters. -/
def perform (connector i : Nat) (a : Ask) (w : World) : World :=
  ((World.access connector i).conclude (a.outcome connector w) w).2

/-- The query passes its checks. -/
def Passes (connector : Nat) (a : Ask) (w : World) : Prop :=
  (w.setting connector a.signal).Admits a.collection ∧
    (w.setting connector a.signal).moment ≠ .beforeCheck

/-- The query passes its checks, and its signal fires between the check and the first look. -/
def HeldBack (connector : Nat) (a : Ask) (w : World) : Prop :=
  (w.setting connector a.signal).Admits a.collection ∧
    (w.setting connector a.signal).moment = .beforeFirstLook

instance (connector : Nat) (a : Ask) (w : World) : Decidable (a.Passes connector w) :=
  inferInstanceAs (Decidable (_ ∧ _))

instance (connector : Nat) (a : Ask) (w : World) : Decidable (a.HeldBack connector w) :=
  inferInstanceAs (Decidable (_ ∧ _))

variable {connector i : Nat} {a : Ask} {w : World}

theorem HeldBack.passes (h : a.HeldBack connector w) : a.Passes connector w := by
  refine ⟨h.1, ?_⟩
  rw [h.2]
  exact Moment.noConfusion

theorem event_ne_none_iff_passes :
    (a.outcome connector w).event ≠ none ↔ a.Passes connector w :=
  event_ne_none_iff

theorem request_ne_none_iff_passes : (a.outcome connector w).request ≠ none ↔
    a.Passes connector w ∧ ¬ a.HeldBack connector w := by
  unfold Passes HeldBack
  rw [show (a.outcome connector w).request ≠ none ↔ _ from request_ne_none_iff]
  grind

/-- A query that passes its checks is counted. -/
theorem storeQueries_perform (hcounters : w.HasCounters i) (h : a.Passes connector w) :
    ((a.perform connector i w).counters i).storeQueries = (w.counters i).storeQueries + 1 := by
  obtain ⟨event, hevent⟩ := Option.ne_none_iff_exists'.mp (event_ne_none_iff_passes.mpr h)
  obtain ⟨nanos, n, rfl⟩ := event_eq_query hevent
  have hmetrics : (a.perform connector i w).counters i
      = (w.record i (.query nanos n)).counters i := by
    unfold perform Access.conclude World.access World.counters
    simp only
    rw [hevent, World.metrics_settle]
  rw [hmetrics, World.counters_record hcounters, if_pos rfl]
  rfl

/-- A find that is started is received by a store. -/
theorem finds_perform_of_started (hlinked : w.Linked connector) (h : a.Passes connector w)
    (hheld : ¬ a.HeldBack connector w) : (a.perform connector i w).finds = w.finds + 1 := by
  obtain ⟨r, hr⟩ := Option.ne_none_iff_exists'.mp (request_ne_none_iff_passes.mpr ⟨h, hheld⟩)
  -- The connection of the setting is the one that the connector holds.
  have hconnected := connection_setting_ne_none_iff.mp h.1.connection
  obtain ⟨c, hc⟩ := Option.ne_none_iff_exists'.mp hconnected
  obtain ⟨-, -, hfinds⟩ := World.receipt_of_request (i := i) hc hr
  exact hfinds (hlinked c hc)

/-- Without a request no store learns of the query. -/
theorem finds_perform_of_not_started (h : ¬ (a.Passes connector w ∧ ¬ a.HeldBack connector w)) :
    (a.perform connector i w).finds = w.finds := by
  have hrequest : (a.outcome connector w).request = none := by
    by_contra hsome
    exact h (request_ne_none_iff_passes.mp hsome)
  unfold perform Access.conclude World.access
  simp only
  rw [hrequest]
  unfold World.settle
  cases (a.outcome connector w).event <;> rfl

/-- A query that a check keeps back leaves the counters as they are. -/
theorem metrics_perform_of_not_passes (h : ¬ a.Passes connector w) :
    (a.perform connector i w).metrics = w.metrics := by
  obtain ⟨e, he⟩ := run_of_not_admits a.limits a.filter h
  have hrefused : a.perform connector i w
      = ((World.access connector i).conclude (.refused e : Outcome (List Mapping)) w).2 := by
    rw [← he]
    rfl
  rw [hrefused]
  exact (World.settle_of_refused w connector i e).2.2

theorem hasCounters_perform (hcounters : w.HasCounters i) :
    (a.perform connector i w).HasCounters i := by
  by_cases h : a.Passes connector w
  · obtain ⟨event, hevent⟩ := Option.ne_none_iff_exists'.mp (event_ne_none_iff_passes.mpr h)
    have hrecorded := World.hasCounters_record hcounters i event
    unfold World.HasCounters at hrecorded ⊢
    unfold perform Access.conclude World.access
    simp only
    rw [hevent, World.metrics_settle]
    exact hrecorded
  · unfold World.HasCounters at hcounters ⊢
    rw [metrics_perform_of_not_passes h]
    exact hcounters

end Ask

/-! ## §3. Histories. -/

/-- Something that happens: a query over the connector, or a change from outside. -/
inductive Turn where
  | ask (a : Ask)
  | meanwhile (change : World → World)

/-- A change that sends no finds, counts no queries, and takes no counters or stores away.  It may
fire signals, let them fire later, and connect. -/
structure World.Undisturbed (connector i : Nat) (w w' : World) : Prop where
  finds : w'.finds = w.finds
  storeQueries : (w'.counters i).storeQueries = (w.counters i).storeQueries
  hasCounters : w.HasCounters i → w'.HasCounters i
  linked : w.Linked connector → w'.Linked connector

namespace Turn

/-- The world after a turn. -/
def take (connector i : Nat) (w : World) : Turn → World
  | .ask a => a.perform connector i w
  | .meanwhile change => change w

/-- Only queries count queries and send finds. -/
def Suits (connector i : Nat) : Turn → Prop
  | .ask _ => True
  | .meanwhile change => ∀ w : World, w.Undisturbed connector i (change w)

/-- The world after some turns. -/
def takeAll (connector i : Nat) (w : World) (turns : List Turn) : World :=
  turns.foldl (take connector i) w

/-- The queries among some turns, each with the world in which it started. -/
def asked (connector i : Nat) (w : World) : List Turn → List (Ask × World)
  | [] => []
  | .ask a :: rest => (a, w) :: asked connector i (a.perform connector i w) rest
  | .meanwhile change :: rest => asked connector i (change w) rest

end Turn

namespace World

variable {connector i : Nat} {w v u : World}

/-- From one world to another so many queries have been counted that no store has learnt of; there
are still counters and the store of the connection. -/
structure Accounts (connector i held : Nat) (w w' : World) : Prop where
  balance : (w'.counters i).storeQueries + w.finds = (w.counters i).storeQueries + w'.finds + held
  hasCounters : w'.HasCounters i
  linked : w'.Linked connector

theorem Accounts.trans {held held' : Nat} (h : Accounts connector i held w v)
    (h' : Accounts connector i held' v u) : Accounts connector i (held + held') w u where
  balance := by
    have hfirst := h.balance
    have hsecond := h'.balance
    omega
  hasCounters := h'.hasCounters
  linked := h'.linked

/-- **One query more on the account.** -/
theorem accounts_perform (hcounters : w.HasCounters i) (hlinked : w.Linked connector) (a : Ask) :
    Accounts connector i (if a.HeldBack connector w then 1 else 0) w
      (a.perform connector i w) where
  balance := by
    by_cases hpasses : a.Passes connector w
    · have hqueries := Ask.storeQueries_perform hcounters hpasses
      by_cases hheld : a.HeldBack connector w
      · have hfinds := Ask.finds_perform_of_not_started (i := i) fun h => h.2 hheld
        rw [if_pos hheld]
        omega
      · have hfinds := Ask.finds_perform_of_started (i := i) hlinked hpasses hheld
        rw [if_neg hheld]
        omega
    · have hmetrics := Ask.metrics_perform_of_not_passes (i := i) hpasses
      have hfinds := Ask.finds_perform_of_not_started (i := i) fun h => hpasses h.1
      rw [if_neg fun hheld => hpasses hheld.passes]
      unfold counters
      rw [hmetrics]
      omega
  hasCounters := Ask.hasCounters_perform hcounters
  linked := hlinked.settle i _ _ _

theorem accounts_of_undisturbed (hcounters : w.HasCounters i) (hlinked : w.Linked connector)
    (h : Undisturbed connector i w v) : Accounts connector i 0 w v where
  balance := by
    have hfinds := h.finds
    have hqueries := h.storeQueries
    omega
  hasCounters := h.hasCounters hcounters
  linked := h.linked hlinked

end World

namespace Turn

open World

variable {connector i : Nat} {w : World} {turns : List Turn}

/-- **The account of a history**: the counter is ahead of the finds by the queries whose signal has
fired between the check and the first look. -/
theorem accounts_takeAll (hcounters : w.HasCounters i) (hlinked : w.Linked connector)
    (hturns : ∀ t ∈ turns, t.Suits connector i) :
    Accounts connector i ((asked connector i w turns).countP fun p => p.1.HeldBack connector p.2) w
      (takeAll connector i w turns) := by
  induction turns generalizing w with
  | nil => exact ⟨rfl, hcounters, hlinked⟩
  | cons t rest ih =>
    obtain ⟨ht, hrest⟩ := List.forall_mem_cons.mp hturns
    cases t with
    | ask a =>
      have hfirst := accounts_perform hcounters hlinked a
      have htotal := hfirst.trans (ih hfirst.hasCounters hfirst.linked hrest)
      rw [asked, List.countP_cons, Nat.add_comm]
      simp only [decide_eq_true_eq]
      exact htotal
    | meanwhile change =>
      have hfirst := accounts_of_undisturbed hcounters hlinked (ht w)
      have htotal := hfirst.trans (ih hfirst.hasCounters hfirst.linked hrest)
      rw [Nat.zero_add] at htotal
      exact htotal

/-- Wherever a query starts, there are counters and the store of the connection. -/
theorem linked_of_mem_asked (hcounters : w.HasCounters i) (hlinked : w.Linked connector)
    (hturns : ∀ t ∈ turns, t.Suits connector i) :
    ∀ p ∈ asked connector i w turns, p.2.HasCounters i ∧ p.2.Linked connector := by
  induction turns generalizing w with
  | nil => exact List.forall_mem_nil _
  | cons t rest ih =>
    obtain ⟨ht, hrest⟩ := List.forall_mem_cons.mp hturns
    cases t with
    | ask a =>
      have hfirst := accounts_perform hcounters hlinked a
      exact List.forall_mem_cons.mpr ⟨⟨hcounters, hlinked⟩,
        ih hfirst.hasCounters hfirst.linked hrest⟩
    | meanwhile change =>
      have hfirst := accounts_of_undisturbed hcounters hlinked (ht w)
      exact ih hfirst.hasCounters hfirst.linked hrest

/-- **Queries that are counted and finds that are started.**  Let queries be asked over a
connector, and let signals, clocks and connections change in any way between them.  A query grows
the counter by one exactly if it passes its checks, and the finds of the stores by one exactly if
moreover its signal does not fire between the check and the first look.  So the counter is the
number of finds as long as no signal fires there, and ahead of it by the number of those that do. -/
theorem counted_iff_started (hcounters : w.HasCounters i) (hlinked : w.Linked connector)
    (hturns : ∀ t ∈ turns, t.Suits connector i) :
    let w' := takeAll connector i w turns
    let queries := asked connector i w turns
    (∀ p ∈ queries, ((p.1.perform connector i p.2).counters i).storeQueries
        = (p.2.counters i).storeQueries + (if p.1.Passes connector p.2 then 1 else 0) ∧
      (p.1.perform connector i p.2).finds = p.2.finds +
        (if p.1.Passes connector p.2 ∧ ¬ p.1.HeldBack connector p.2 then 1 else 0)) ∧
    (w'.counters i).storeQueries + w.finds = (w.counters i).storeQueries + w'.finds
      + queries.countP (fun p => p.1.HeldBack connector p.2) ∧
    ((w.counters i).storeQueries = w.finds → ((w'.counters i).storeQueries = w'.finds ↔
      ∀ p ∈ queries, ¬ p.1.HeldBack connector p.2)) := by
  intro w' queries
  have hbalance := (accounts_takeAll hcounters hlinked hturns).balance
  refine ⟨?_, hbalance, ?_⟩
  · intro p hp
    obtain ⟨hpcounters, hplinked⟩ := linked_of_mem_asked hcounters hlinked hturns p hp
    constructor
    · by_cases hpasses : p.1.Passes connector p.2
      · rw [if_pos hpasses]
        exact Ask.storeQueries_perform hpcounters hpasses
      · rw [if_neg hpasses]
        unfold World.counters
        rw [Ask.metrics_perform_of_not_passes hpasses]
        rfl
    · by_cases hstarted : p.1.Passes connector p.2 ∧ ¬ p.1.HeldBack connector p.2
      · rw [if_pos hstarted]
        exact Ask.finds_perform_of_started hplinked hstarted.1 hstarted.2
      · rw [if_neg hstarted]
        exact Ask.finds_perform_of_not_started hstarted
  · intro hequal
    have hnone : queries.countP (fun p => p.1.HeldBack connector p.2) = 0 ↔
        ∀ p ∈ queries, ¬ p.1.HeldBack connector p.2 := by
      rw [List.countP_eq_zero]
      simp only [decide_eq_true_eq]
    rw [← hnone]
    have hlate : (w'.counters i).storeQueries + w.finds = (w.counters i).storeQueries + w'.finds
      + queries.countP (fun p => p.1.HeldBack connector p.2) := hbalance
    omega

/-- A query for all users. -/
def users : Ask := ⟨default, "users", [], 0⟩

/-- Another thread fires the signal before anything else can happen. -/
def firesNow (w : World) : World := { w with signals := w.signals.schedule 0 w.clock }

/-- A query, and another one whose signal fires between its check and the first look. -/
theorem counted_iff_started_overtaken :
    let turns := [.ask users, .meanwhile firesNow, .ask users]
    let w := Host.stocked 0 0 []
    let w' := takeAll 0 0 w turns
    w.HasCounters 0 ∧ w.Linked 0 ∧ (∀ t ∈ turns, t.Suits 0 0) ∧
      (w'.counters 0).storeQueries = w'.finds + 1 ∧ (w'.counters 0).storeQueries ≠ w'.finds := by
  intro turns w w'
  have hlinked : w.Linked 0 := by
    intro c hc
    cases hc
    exact Nat.zero_lt_one
  have hturns : ∀ t ∈ turns, t.Suits 0 0 := by
    intro t ht
    rcases List.mem_cons.mp ht with rfl | ht
    · exact trivial
    rcases List.mem_cons.mp ht with rfl | ht
    · exact fun w => ⟨rfl, rfl, id, id⟩
    · obtain rfl := List.mem_singleton.mp ht
      exact trivial
  have hcounters : w.HasCounters 0 := rfl
  obtain ⟨-, hbalance, -⟩ := counted_iff_started hcounters hlinked hturns
  have hheld : (asked 0 0 w turns).countP (fun p => p.1.HeldBack 0 p.2) = 1 := by decide +kernel
  have hbegin : (w.counters 0).storeQueries = w.finds := rfl
  have hahead : (w'.counters 0).storeQueries + w.finds
      = (w.counters 0).storeQueries + w'.finds + 1 := hheld ▸ hbalance
  exact ⟨hcounters, hlinked, hturns, by omega, by omega⟩

/-- **A query can be counted without a find**: its signal fires between the check and the first
look. -/
theorem counted_without_find :
    let w := firesNow (Host.stocked 0 0 [])
    let w' := users.perform 0 0 w
    (w.setting 0 users.signal).moment = .beforeFirstLook ∧
      (w.counters 0).storeQueries = 0 ∧ w.finds = 0 ∧
      (w'.counters 0).storeQueries = 1 ∧ w'.finds = 0 := by
  decide +kernel

end Turn

end PolicyLookup
