/-
  PolicyLookup.Proofs.Session.Reach — when a query reaches its store.

  A query has three preconditions: there is a connection, the name is one that a collection can
  have, and the signal has not fired.  If all of them hold, exactly one request leaves for the store
  of the connection.  If not, the first that fails is the error, and neither the stores nor the
  counters learn of the query.

  The signal stays as it is while the query runs.  One that fires at the very moment of the first
  look would keep the request back, after all checks have been passed.

    * `request_of_permitted` — the one request of a query that passes.
    * `receipt_of_request` — what it leaves with the stores.
    * `query_reaches_store_iff` — the main result.
-/

import PolicyLookup.Proofs.Query.Race
import PolicyLookup.Proofs.Session.Cancellation

namespace PolicyLookup

namespace Query

/-! ## §1. The request. -/

variable {limits : QueryLimits} {collection : String} {filter : Mapping} {s : Setting}
  {c : Connection DocumentStore}

/-- A signal that is due at the first look ends the find there. -/
theorem decide_of_signal_zero {t : Timeline} (h : t.signal = some 0) : t.decide.2 = 0 := by
  rcases t.decide_cases with ⟨s, hdecide, hs, -, -⟩ | ⟨a, -, -, hs, -⟩ | ⟨-, hs, -⟩
  · rw [hdecide]
    exact Option.some.inj (hs.symm.trans h)
  · exact absurd (hs 0 h) (Nat.not_lt_zero a)
  · exact absurd (hs 0 h) (Nat.not_lt_zero _)

/-- **A query that passes sends one request**, unless its signal fires at the first look, and then
it does not wait. -/
theorem request_of_permitted (limits : QueryLimits) (filter : Mapping)
    (hconnection : s.connection = some c)
    (hcollection : IsCollectionName collection) (hfired : s.hasFired = false) :
    (s.firesIn ≠ some 0 → (run limits collection filter s).request
      = some (requestOf limits c.database collection filter)) ∧
    (s.firesIn = some 0 → (run limits collection filter s).elapsed = 0) := by
  rw [run_of_permitted hconnection hcollection hfired,
    find_eq limits collection filter c s.firesIn]
  constructor
  · intro hsignal
    refine if_pos ?_
    unfold Timeline.reachesStore
    rw [bne_iff_ne]
    exact hsignal
  · intro hsignal
    exact decide_of_signal_zero hsignal

end Query

/-! ## §2. The world. -/

namespace World

variable {w : World} {connector i : Nat} {signal : SignalId}

/-- A signal whose time has come has fired. -/
theorem hasFired_ring_of_due {s : Signals} {time now : Nat} (h : s.due? signal = some time)
    (hnow : time ≤ now) : (s.ring now).hasFired signal = true := by
  unfold Signals.due? at h
  obtain ⟨⟨id, time'⟩, hmem, rfl⟩ := List.mem_map.mp (List.min?_mem h)
  obtain ⟨halarm, hid⟩ := List.mem_filter.mp hmem
  obtain rfl : id = signal := beq_iff_eq.mp hid
  unfold Signals.hasFired Signals.ring
  rw [List.contains_iff_mem]
  apply List.mem_append_left
  exact List.mem_map.mpr ⟨(id, time'), List.mem_filter.mpr ⟨halarm, decide_eq_true hnow⟩, rfl⟩

/-- A request leaves its traces at the store of the connection. -/
theorem stores_settle_some {c : Connection StoreRef} (hconnection : w.connection connector = some c)
    (r : FindRequest) (event : Option Metrics.Event) (elapsed : Nat) :
    (w.settle connector i (some r) event elapsed).stores = (w.receive r c.store).stores ∧
      (w.settle connector i (some r) event elapsed).sent = (w.receive r c.store).sent := by
  unfold settle
  rw [hconnection]
  cases event <;> exact ⟨rfl, rfl⟩

/-- **A query that has sent a request leaves it with the store of the connection**, once, and leaves
nothing with any other store. -/
theorem receipt_of_request {α : Type} {o : Query.Outcome α} {c : Connection StoreRef}
    {r : FindRequest} (hconnection : w.connection connector = some c)
    (hrequest : o.request = some r) :
    let w' := ((access connector i).conclude o w).2
    w'.stores = (w.receive r c.store).stores ∧ w'.sent = (w.receive r c.store).sent ∧
      (w.Has c.store → w'.finds = w.finds + 1) := by
  intro w'
  have hw' : w' = w.settle connector i (some r) o.event o.elapsed := by
    rw [← hrequest]
    rfl
  obtain ⟨hstores, hsent⟩ := stores_settle_some (i := i) hconnection r o.event o.elapsed
  rw [← hw'] at hstores hsent
  refine ⟨hstores, hsent, ?_⟩
  intro hhas
  -- The finds are counted at the stores and nowhere else.
  rw [← finds_receive_of_has r hhas]
  unfold finds
  rw [hstores, hsent]

/-- A refused query leaves stores and counters as they are. -/
theorem settle_of_refused {α : Type} (w : World) (connector i : Nat) (e : Error) :
    let w' := ((access connector i).conclude (Query.Outcome.refused e : Query.Outcome α) w).2
    w'.stores = w.stores ∧ w'.sent = w.sent ∧ w'.metrics = w.metrics :=
  ⟨rfl, rfl, rfl⟩

end World

namespace Query

open World

variable {w : World} {connector i : Nat} {limits : QueryLimits} {collection : String}
  {filter : Mapping} {signal : SignalId}

/-- A query finds a connection if its connector has one. -/
theorem connection_setting_ne_none_iff :
    (w.setting connector signal).connection ≠ none ↔ w.connection connector ≠ none := by
  unfold setting
  rw [ne_eq, Option.map_eq_none_iff]

/-- A query under a signal that stays as it is sends its request if it passes. -/
theorem request_of_fixed {c : Connection StoreRef} (hconnection : w.connection connector = some c)
    (hcollection : IsCollectionName collection) (hfired : w.signals.hasFired signal = false)
    (hfixed : ((access connector i).conclude
        (run limits collection filter (w.setting connector signal)) w).2.signals.hasFired signal
      = w.signals.hasFired signal) :
    (run limits collection filter (w.setting connector signal)).request
      = some (requestOf limits c.database collection filter) := by
  have hsetting : (w.setting connector signal).connection
      = some ⟨w.store c.store, c.database⟩ := by
    unfold setting
    rw [hconnection]
    rfl
  obtain ⟨hsent, hwaits⟩ := request_of_permitted limits filter hsetting hcollection hfired
  apply hsent
  intro hzero
  -- A signal that is due at once has fired when the query has ended.
  obtain ⟨time, hdue, htime⟩ := Option.map_eq_some_iff.mp hzero
  have hrings : (w.signals.ring (w.clock + 0)).hasFired signal = true :=
    hasFired_ring_of_due hdue (by omega)
  have hsettled : ((access connector i).conclude
      (run limits collection filter (w.setting connector signal)) w).2.signals
      = w.signals.ring (w.clock + 0) := by
    rw [← hwaits hzero]
    exact signals_settle w connector i _ _ _
  rw [hsettled, hrings, hfired] at hfixed
  cases hfixed

/-- **A query reaches its store exactly if every precondition holds.**  Under a signal that stays as
it is while the query runs, a request leaves exactly if there is a connection, the name is one that
a collection can have, and the signal has not fired.  There is one request then, for the database of
the connection; the store of the connection has received it, and no store has received anything
else.  Otherwise the first precondition that does not hold is the error, and no store and no counter
has changed. -/
theorem query_reaches_store_iff
    (hfixed : ((access connector i).conclude
        (run limits collection filter (w.setting connector signal)) w).2.signals.hasFired signal
      = w.signals.hasFired signal) :
    let o := run limits collection filter (w.setting connector signal)
    let w' := ((access connector i).conclude o w).2
    (o.request ≠ none ↔ w.connection connector ≠ none ∧ IsCollectionName collection ∧
      w.signals.hasFired signal = false) ∧
    (∀ r, o.request = some r → ∃ c, w.connection connector = some c ∧
      r = { database := c.database
            collection := collection
            filter := Document.ofMapping filter
            maxDocuments := min (limits.maxDocuments + 1) (2 ^ 64 - 1)
            timeBudget := limits.timeout } ∧
      w'.stores = (w.receive r c.store).stores ∧ w'.sent = (w.receive r c.store).sent ∧
      (w.Has c.store → w'.finds = w.finds + 1)) ∧
    (o.request = none → w'.stores = w.stores ∧ w'.sent = w.sent ∧ w'.metrics = w.metrics) ∧
    (w.connection connector = none → o.result = .error
      (.query .notInitialized "connection manager has not been initialized" none)) ∧
    (w.connection connector ≠ none → ¬ IsCollectionName collection →
      o.result = .error (invalidName collection)) ∧
    (w.connection connector ≠ none → IsCollectionName collection →
      w.signals.hasFired signal = true → o.result = .error
        (.query .cancelled "evaluation was canceled before the query started" none)) := by
  intro o w'
  by_cases hpermitted : w.connection connector ≠ none ∧ IsCollectionName collection ∧
      w.signals.hasFired signal = false
  · obtain ⟨hconnected, hname, hfired⟩ := hpermitted
    obtain ⟨c, hconnection⟩ := Option.ne_none_iff_exists'.mp hconnected
    have hrequest : o.request = some (requestOf limits c.database collection filter) :=
      request_of_fixed hconnection hname hfired hfixed
    refine ⟨?_, ?_, ?_, ?_, ?_, ?_⟩
    · rw [hrequest]
      exact ⟨fun _ => ⟨hconnected, hname, hfired⟩, fun _ => Option.some_ne_none _⟩
    · intro r hr
      obtain rfl : requestOf limits c.database collection filter = r :=
        Option.some.inj (hrequest.symm.trans hr)
      exact ⟨c, hconnection, rfl, receipt_of_request hconnection hrequest⟩
    · intro hnone
      cases hrequest.symm.trans hnone
    · intro hnone
      exact absurd hnone hconnected
    · intro _ hnot
      exact absurd hname hnot
    · intro _ _ hhasFired
      rw [hfired] at hhasFired
      cases hhasFired
  · -- The query is refused: its outcome has no request and no event.
    have hsetting : ¬ ((w.setting connector signal).Admits collection ∧
        (w.setting connector signal).hasFired = false) := by
      rintro ⟨⟨hconnection, hname⟩, hfired⟩
      exact hpermitted ⟨connection_setting_ne_none_iff.mp hconnection, hname, hfired⟩
    have ho : o = .refused (refusal (w.setting connector signal).connection collection) :=
      run_of_not_permitted limits filter hsetting
    refine ⟨?_, ?_, ?_, ?_, ?_, ?_⟩
    · rw [ho]
      exact ⟨fun hsome => absurd rfl hsome, fun h => absurd h hpermitted⟩
    · intro r hr
      rw [ho] at hr
      cases hr
    · intro _
      show ((access connector i).conclude o w).2.stores = _ ∧
        ((access connector i).conclude o w).2.sent = _ ∧
        ((access connector i).conclude o w).2.metrics = _
      rw [ho]
      exact settle_of_refused w connector i _
    · intro hnone
      rw [ho, setting, hnone]
      rfl
    · intro hsome hname
      rw [ho, refusal_of_not_isCollectionName (connection_setting_ne_none_iff.mpr hsome) hname]
      rfl
    · intro hsome hname _
      rw [ho, refusal_of_isCollectionName (connection_setting_ne_none_iff.mpr hsome) hname]
      rfl

/-- A query for all users reaches the store in memory. -/
theorem query_reaches_store_iff_users :
    let o := run ⟨5000, 10⟩ "users" [] ((Host.stocked 7 3 []).setting 0 0)
    let w' := ((access 0 0).conclude o (Host.stocked 7 3 [])).2
    w'.signals.hasFired 0 = (Host.stocked 7 3 []).signals.hasFired 0 ∧
      (∃ r, o.request = some r ∧ r.collection = "users" ∧ r.maxDocuments = 11) ∧ w'.finds = 1 := by
  intro o w'
  have hfixed : w'.signals.hasFired 0 = (Host.stocked 7 3 []).signals.hasFired 0 := by
    show (World.settle _ 0 0 _ _ _).signals.hasFired 0 = _
    rw [signals_settle]
    rfl
  obtain ⟨hreaches, hrequest, -⟩ := query_reaches_store_iff hfixed
  have hname : IsCollectionName "users" := ⟨by decide, by decide, by decide⟩
  have hsent : o.request ≠ none := hreaches.mpr ⟨nofun, hname, rfl⟩
  obtain ⟨r, hr⟩ := Option.ne_none_iff_exists'.mp hsent
  obtain ⟨c, hconnection, heq, -, -, hfinds⟩ := hrequest r hr
  cases hconnection
  exact ⟨hfixed, ⟨r, hr, by rw [heq], by rw [heq]; rfl⟩, hfinds Nat.zero_lt_one⟩

end Query

end PolicyLookup
