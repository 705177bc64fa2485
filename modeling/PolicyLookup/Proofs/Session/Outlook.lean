/-
  PolicyLookup.Proofs.Session.Outlook — what a query can see of the world.

  A query sees the contents of the stores, the network, the connectors, and its own signal: if
  it has fired, and how long it is until it will.  It does not see the clock, the requests that
  stores have received, the counters, and the signals of other evaluations.

    * `outlook_fits_query` — the function for queries goes by nothing else.
-/

import PolicyLookup.Proofs.Host.Outlook
import PolicyLookup.Session.World

namespace PolicyLookup

namespace World

/-- What can be seen of a world under a signal. -/
structure Sight where
  contents : List MemoryStore
  network : Address → Option DocumentStore
  connectors : Table (Connector StoreRef)
  hasFired : Bool
  /-- The times until the signal will fire by itself. -/
  alarms : List Nat
  /-- Whether the counters are there. -/
  isCounted : Bool

/-- What can be seen after some time. -/
def Sight.after (s : Sight) (ms : Nat) : Sight :=
  { s with
    hasFired := s.alarms.any (fun t => decide (t ≤ ms)) || s.hasFired
    alarms := (s.alarms.filter fun t => decide (ms < t)).map (· - ms) }

/-- What can be seen of a world, the given counters being its own. -/
def outlook (metrics : Nat) : Outlook World Sight where
  view := fun signal w =>
    { contents := w.stores.entries.map (·.contents)
      network := w.network
      connectors := w.connectors
      hasFired := w.signals.hasFired signal
      alarms := (w.signals.alarms.filter fun a => a.1 == signal).map fun a => a.2 - w.clock
      isCounted := (w.metrics.get? metrics).isSome }
  counters := fun w => (w.metrics.get? metrics).getD .zero

variable {metrics : Nat} {signal signal' : SignalId} {w w' : World}

/-! ## §1. What a query finds. -/

theorem connection_eq (h : (outlook metrics).view signal w = (outlook metrics).view signal' w')
    (connector : Nat) : w.connection connector = w'.connection connector := by
  have hconnectors : w.connectors = w'.connectors := congrArg Sight.connectors h
  simp only [connection, hconnectors]

theorem store_eq (h : (outlook metrics).view signal w = (outlook metrics).view signal' w')
    (ref : StoreRef) : w.store ref = w'.store ref := by
  cases ref with
  | memory i =>
    have hcontents : w.stores.entries.map (·.contents) = w'.stores.entries.map (·.contents) :=
      congrArg Sight.contents h
    have hi := congrArg (·[i]?) hcontents
    simp only [List.getElem?_map] at hi
    simp only [store, Table.get?]
    cases hw : w.stores.entries[i]? with
    | none =>
      cases hw' : w'.stores.entries[i]? with
      | none => rfl
      | some r' => rw [hw, hw'] at hi; cases hi
    | some r =>
      cases hw' : w'.stores.entries[i]? with
      | none => rw [hw, hw'] at hi; cases hi
      | some r' =>
        rw [hw, hw'] at hi
        have hr : r.contents = r'.contents := Option.some.inj hi
        simp only [hr]
  | remote address =>
    have hnetwork : w.network = w'.network := congrArg Sight.network h
    simp only [store, hnetwork]

/-- The smallest of some times, later on. -/
theorem min?_map_sub (times : List Nat) (now : Nat) :
    (times.map (· - now)).min? = times.min?.map (· - now) := by
  induction times with
  | nil => rfl
  | cons t rest ih =>
    rw [List.map_cons, List.min?_cons, List.min?_cons, ih]
    cases rest.min? with
    | none => rfl
    | some u =>
      show some (min (t - now) (u - now)) = some (min t u - now)
      congr 1
      omega

theorem due?_eq (h : (outlook metrics).view signal w = (outlook metrics).view signal' w') :
    (w.signals.due? signal).map (· - w.clock) = (w'.signals.due? signal').map (· - w'.clock) := by
  have halarms := congrArg Sight.alarms h
  -- A signal is due at the first of its alarms; the times until them can be seen.
  have hmin := congrArg List.min? halarms
  simp only [outlook] at hmin
  unfold Signals.due?
  rw [← min?_map_sub, ← min?_map_sub, List.map_map, List.map_map]
  exact hmin

/-- In worlds that look alike a query finds the same. -/
theorem setting_eq (h : (outlook metrics).view signal w = (outlook metrics).view signal' w')
    (connector : Nat) : w.setting connector signal = w'.setting connector signal' := by
  have hfired : w.signals.hasFired signal = w'.signals.hasFired signal' :=
    congrArg Sight.hasFired h
  have hstore : w.store = w'.store := funext (store_eq h)
  simp only [setting, connection_eq h, hstore, hfired, due?_eq h]

/-! ## §2. What a query leaves behind. -/

@[simp] theorem view_receive (w : World) (r : FindRequest) (ref : StoreRef) :
    (outlook metrics).view signal (w.receive r ref) = (outlook metrics).view signal w := by
  cases ref with
  | memory i =>
    have hcontents : (w.stores.entries.modify i fun s =>
        { s with received := s.received ++ [r] }).map (·.contents)
          = w.stores.entries.map (·.contents) := by
      apply List.ext_getElem?
      intro j
      rw [List.getElem?_map, List.getElem?_map, List.getElem?_modify]
      cases w.stores.entries[j]? with
      | none => rfl
      | some s => by_cases hij : i = j <;> simp [hij]
    show Sight.mk _ _ _ _ _ _ = Sight.mk _ _ _ _ _ _
    simp only [receive, Table.modify, hcontents]
  | remote address => rfl

theorem get?_record (w : World) (i : Nat) (event : Metrics.Event) :
    (w.record i event).metrics.get? metrics
      = if i = metrics then (w.metrics.get? metrics).map (·.record event)
        else w.metrics.get? metrics := by
  simp only [record, Table.get?, Table.modify, List.getElem?_modify]
  split
  · rfl
  · simp

@[simp] theorem view_record (w : World) (i : Nat) (event : Metrics.Event) :
    (outlook metrics).view signal (w.record i event) = (outlook metrics).view signal w := by
  have hcounted : ((w.record i event).metrics.get? metrics).isSome
      = (w.metrics.get? metrics).isSome := by
    rw [get?_record]
    split
    · simp
    · rfl
  show Sight.mk _ _ _ _ _ _ = Sight.mk _ _ _ _ _ _
  rw [hcounted]
  rfl

/-- The signals that ring are those whose time has come. -/
theorem contains_ringing (alarms : List (SignalId × Nat)) (signal : SignalId) (now ms : Nat) :
    ((alarms.filter fun a => decide (a.2 ≤ now + ms)).map Prod.fst).contains signal
      = ((alarms.filter fun a => a.1 == signal).map fun a => a.2 - now).any
          fun t => decide (t ≤ ms) := by
  induction alarms with
  | nil => rfl
  | cons a rest ih =>
    obtain ⟨id, time⟩ := a
    have htime : time ≤ now + ms ↔ time - now ≤ ms := by omega
    by_cases hid : id = signal
    · by_cases ht : time - now ≤ ms
      · simp [hid, ht, htime]
      · simpa [hid, ht, htime] using ih
    · have hbeq : (signal == id) = false := beq_eq_false_iff_ne.mpr (Ne.symm hid)
      by_cases ht : time - now ≤ ms
      · simpa [hid, hbeq, ht, htime] using ih
      · simpa [hid, ht, htime] using ih

/-- The alarms that are left are those whose time has not come. -/
theorem remaining_alarms (alarms : List (SignalId × Nat)) (signal : SignalId) (now ms : Nat) :
    ((alarms.filter fun a => decide (now + ms < a.2)).filter fun a => a.1 == signal).map
        (fun a => a.2 - (now + ms))
      = (((alarms.filter fun a => a.1 == signal).map fun a => a.2 - now).filter
          fun t => decide (ms < t)).map (· - ms) := by
  induction alarms with
  | nil => rfl
  | cons a rest ih =>
    obtain ⟨id, time⟩ := a
    have htime : now + ms < time ↔ ms < time - now := by omega
    have hsub : time - (now + ms) = time - now - ms := by omega
    by_cases hid : id = signal
    · by_cases ht : ms < time - now
      · simpa [hid, ht, htime, hsub] using ih
      · simpa [hid, ht, htime] using ih
    · by_cases ht : ms < time - now
      · simpa [hid, ht, htime] using ih
      · simpa [hid, ht, htime] using ih

/-- Time passes for the sight of a world as it does for the world. -/
theorem view_pass (w : World) (ms : Nat) :
    (outlook metrics).view signal (w.pass ms) = ((outlook metrics).view signal w).after ms := by
  show Sight.mk _ _ _ _ _ _ = Sight.mk _ _ _ _ _ _
  simp only [pass, Signals.ring, Signals.hasFired, remaining_alarms]
  rw [List.contains_eq_any_beq, List.any_append, ← List.contains_eq_any_beq, contains_ringing,
    ← List.contains_eq_any_beq]
  rfl

/-- What can be seen of the world after a query. -/
theorem view_settle (w : World) (connector i : Nat) (request : Option FindRequest)
    (event : Option Metrics.Event) (elapsed : Nat) :
    (outlook metrics).view signal (w.settle connector i request event elapsed)
      = ((outlook metrics).view signal w).after elapsed := by
  unfold settle
  rw [view_pass]
  cases event with
  | none =>
    rcases request with _ | r
    · rfl
    · cases w.connection connector with
      | none => rfl
      | some c => simp only [view_receive]
  | some e =>
    rcases request with _ | r
    · simp only [view_record]
    · cases w.connection connector with
      | none => simp only [view_record]
      | some c => simp only [view_record, view_receive]

/-! ## §3. Counters. -/

theorem sameStep_record (h : (outlook metrics).view signal w = (outlook metrics).view signal' w')
    (i : Nat) (event : Metrics.Event) :
    (outlook metrics).SameStep signal signal' w (w.record i event) w' (w'.record i event) := by
  refine ⟨by rw [view_record, view_record, h], ?_⟩
  have hcounted : (w.metrics.get? metrics).isSome = (w'.metrics.get? metrics).isSome :=
    congrArg Sight.isCounted h
  show Metrics.SameChange ((w.metrics.get? metrics).getD .zero)
    (((w.record i event).metrics.get? metrics).getD .zero)
    ((w'.metrics.get? metrics).getD .zero)
    (((w'.record i event).metrics.get? metrics).getD .zero)
  rw [get?_record, get?_record]
  by_cases hi : i = metrics
  · rw [if_pos hi, if_pos hi]
    cases hw : w.metrics.get? metrics with
    | none =>
      cases hw' : w'.metrics.get? metrics with
      | none => exact .rfl
      | some m' => rw [hw, hw'] at hcounted; cases hcounted
    | some m =>
      cases hw' : w'.metrics.get? metrics with
      | none => rw [hw, hw'] at hcounted; cases hcounted
      | some m' => exact .record m m' event
  · rw [if_neg hi, if_neg hi]
    exact .rfl

/-- A query changes counters by the event that it reports, and by nothing else. -/
theorem counters_settle (w : World) (connector i : Nat) (request : Option FindRequest)
    (event : Option Metrics.Event) (elapsed : Nat) :
    (outlook metrics).counters (w.settle connector i request event elapsed)
      = match event with
        | none => (outlook metrics).counters w
        | some e => (outlook metrics).counters (w.record i e) := by
  unfold settle
  rcases request with _ | r
  · cases event <;> rfl
  · cases w.connection connector with
    | none => cases event <;> rfl
    | some c =>
      obtain ⟨ref, database⟩ := c
      cases event <;> cases ref <;> rfl

theorem sameStep_settle (h : (outlook metrics).view signal w = (outlook metrics).view signal' w')
    (connector i : Nat) (request : Option FindRequest) (event : Option Metrics.Event)
    (elapsed : Nat) :
    (outlook metrics).SameStep signal signal' w (w.settle connector i request event elapsed)
      w' (w'.settle connector i request event elapsed) := by
  refine ⟨by rw [view_settle, view_settle, h], ?_⟩
  rw [counters_settle, counters_settle]
  cases event with
  | none => exact .rfl
  | some e => exact (sameStep_record h i e).counters

/-- **The function for queries goes by what can be seen**, whatever its connector, its counters
and its limits. -/
theorem outlook_fits_query (metrics connector i : Nat) (limits : QueryLimits) :
    (outlook metrics).Fits (callSite i) [(access connector i).function limits] where
  record := fun event h => sameStep_record h i event
  answer := by
    intro f hf signal signal' w w' id id' thread args h
    obtain rfl := List.mem_singleton.mp hf
    show (Query.call limits thread args (w.setting connector signal)).result
      = (Query.call limits thread args (w'.setting connector signal')).result
    rw [setting_eq h]
  step := by
    intro f hf signal signal' w w' id id' thread args h
    obtain rfl := List.mem_singleton.mp hf
    show (outlook metrics).SameStep signal signal'
      w ((access connector i).conclude
        (Query.call limits thread args (w.setting connector signal)) w).2
      w' ((access connector i).conclude
        (Query.call limits thread args (w'.setting connector signal')) w').2
    rw [setting_eq h]
    exact sameStep_settle h connector i _ _ _

end World

end PolicyLookup
