/-
  PolicyLookup.Proofs.Query.Race — a find ends with the first event that a look at it finds ready.

  A running find is looked at again and again.  A look asks for the signal first, then for the
  answer of the store, then for the deadline, and the first of them that is ready ends the find for
  good.
  `Timeline.decide` says the same in one stroke: it compares the times of the events.

  The looks are arbitrary.  All that is asked is that they see the events of the query up to the
  look that ends it; what becomes ready afterwards, or falls back, has no say (`watch_of_first`).
  Any looks at all that come across an event are those at some query (`exists_setting_of_first`).

    * `watch_of_first` — the looks at a find end with the first event and stay at it.
    * `decide_of_first` — the times of the events decide the same.
    * `run_first_event` — what a query brings, reports and leaves of the counters.
-/

import PolicyLookup.Proofs.Query.Ending
import PolicyLookup.Proofs.Session.Finds

namespace PolicyLookup

/-- Which events a look at a find finds ready. -/
@[ext]
structure Readiness where
  signal : Bool
  answer : Bool
  deadline : Bool

namespace Readiness

/-- What is found of a find with a deadline: the answer before the deadline. -/
def pollTimed (r : Readiness) : Option FindEvent :=
  if r.answer then some .answer
  else if r.deadline then some .deadline
  else none

/-- What a look finds: the signal before everything else. -/
def poll (r : Readiness) : Option FindEvent := if r.signal then some .signal else r.pollTimed

/-- One look more: a find that has not ended yet ends with the event that this look finds. -/
def step (r : Readiness) (i : Nat) : Option (FindEvent × Nat) → Option (FindEvent × Nat)
  | some ended => some ended
  | none => r.poll.map fun event => (event, i)

variable {r : Readiness}

theorem poll_eq_none_iff :
    r.poll = none ↔ r.signal = false ∧ r.answer = false ∧ r.deadline = false := by
  obtain ⟨_ | _, _ | _, _ | _⟩ := r <;> simp [poll, pollTimed]

theorem poll_eq_signal_iff : r.poll = some .signal ↔ r.signal = true := by
  obtain ⟨_ | _, _ | _, _ | _⟩ := r <;> simp [poll, pollTimed]

theorem poll_eq_answer_iff : r.poll = some .answer ↔ r.signal = false ∧ r.answer = true := by
  obtain ⟨_ | _, _ | _, _ | _⟩ := r <;> simp [poll, pollTimed]

theorem poll_eq_deadline_iff :
    r.poll = some .deadline ↔ r.signal = false ∧ r.answer = false ∧ r.deadline = true := by
  obtain ⟨_ | _, _ | _, _ | _⟩ := r <;> simp [poll, pollTimed]

end Readiness

/-- What the looks at a find see, one after the other. -/
def Looks := Nat → Readiness

namespace Looks

/-- How a find has ended, and at which look, after so many of them. -/
def watch (looks : Looks) : Nat → Option (FindEvent × Nat)
  | 0 => none
  | i + 1 => (looks i).step i (looks.watch i)

/-- The first look that finds an event. -/
structure First (looks : Looks) (n : Nat) : Prop where
  quiet : ∀ i < n, (looks i).poll = none
  ready : (looks n).poll ≠ none

variable {looks : Looks} {n : Nat} {event : FindEvent}

/-! ## §1. Looks. -/

/-- A find goes on while no event is ready. -/
theorem watch_of_quiet (hquiet : ∀ i < n, (looks i).poll = none) : looks.watch n = none := by
  induction n with
  | zero => rfl
  | succ n ih =>
    have hbefore : looks.watch n = none := ih fun i hi => hquiet i (Nat.lt_succ_of_lt hi)
    rw [watch, hbefore, Readiness.step, hquiet n (Nat.lt_succ_self n)]
    rfl

/-- Further looks do not change how a find has ended. -/
theorem watch_of_ended {ended : FindEvent × Nat} {m : Nat} (h : looks.watch n = some ended)
    (hm : n ≤ m) : looks.watch m = some ended := by
  induction m, hm using Nat.le_induction with
  | base => exact h
  | succ m _ ih => rw [watch, ih, Readiness.step]

/-- **A find ends with the event of the first look that finds one**, whatever the looks after it
see. -/
theorem watch_of_first (hfirst : looks.First n) (hpoll : (looks n).poll = some event) {m : Nat}
    (hm : n < m) : looks.watch m = some (event, n) := by
  apply watch_of_ended _ (Nat.succ_le_of_lt hm)
  rw [watch, watch_of_quiet hfirst.quiet, Readiness.step, hpoll]
  rfl

end Looks

/-! ## §2. Looks against times. -/

namespace Timeline

/-- What a look sees of the events: those whose time has come. -/
def seenAt (t : Timeline) (i : Nat) : Readiness where
  signal := t.signal.any fun s => s ≤ i
  answer := t.answer.any fun a => a ≤ i
  deadline := t.deadline ≤ i

variable {t : Timeline} {looks : Looks} {n i : Nat}

/-- An event is not ready before its time. -/
theorem any_le_eq_false_iff {time : Option Nat} :
    (time.any fun s => s ≤ i) = false ↔ ∀ s, time = some s → i < s := by
  cases time with
  | none => simp
  | some s => simp

theorem seenAt_signal_eq_false_iff :
    (t.seenAt i).signal = false ↔ ∀ s, t.signal = some s → i < s :=
  any_le_eq_false_iff

theorem seenAt_answer_eq_false_iff :
    (t.seenAt i).answer = false ↔ ∀ a, t.answer = some a → i < a :=
  any_le_eq_false_iff

theorem seenAt_deadline_eq_false_iff : (t.seenAt i).deadline = false ↔ i < t.deadline := by
  simp [seenAt]

/-- What decides is no later than the other events, and earlier than those that come before it. -/
theorem decide_cases (t : Timeline) :
    (∃ s, t.decide = (.signal, s) ∧ t.signal = some s ∧ (∀ a, t.answer = some a → s ≤ a) ∧
      s ≤ t.deadline) ∨
    (∃ a, t.decide = (.answer, a) ∧ t.answer = some a ∧ (∀ s, t.signal = some s → a < s) ∧
      a ≤ t.deadline) ∨
    (t.decide = (.deadline, t.deadline) ∧ (∀ s, t.signal = some s → t.deadline < s) ∧
      ∀ a, t.answer = some a → t.deadline < a) := by
  obtain ⟨signal, answer, deadline⟩ := t
  -- The answer and the deadline decide between them first.
  have hrest : (∃ a, withoutSignal ⟨signal, answer, deadline⟩ = (.answer, a) ∧ answer = some a ∧
        a ≤ deadline) ∨
      (withoutSignal ⟨signal, answer, deadline⟩ = (.deadline, deadline) ∧
        ∀ a, answer = some a → deadline < a) := by
    cases answer with
    | none => exact Or.inr ⟨rfl, nofun⟩
    | some a =>
      by_cases ha : a ≤ deadline
      · exact Or.inl ⟨a, if_pos ha, rfl, ha⟩
      · refine Or.inr ⟨if_neg ha, ?_⟩
        intro a' ha'
        cases ha'
        exact Nat.lt_of_not_le ha
  cases signal with
  | none =>
    right
    rcases hrest with ⟨a, hdecide, hanswer, ha⟩ | ⟨hdecide, hanswer⟩
    · exact Or.inl ⟨a, hdecide, hanswer, nofun, ha⟩
    · exact Or.inr ⟨hdecide, nofun, hanswer⟩
  | some s =>
    by_cases hs : s ≤ (withoutSignal ⟨some s, answer, deadline⟩).2
    · left
      refine ⟨s, if_pos hs, rfl, ?_⟩
      rcases hrest with ⟨a, hdecide, hanswer, ha⟩ | ⟨hdecide, hanswer⟩
      · rw [hdecide] at hs
        refine ⟨?_, Nat.le_trans hs ha⟩
        intro a' ha'
        cases hanswer.symm.trans ha'
        exact hs
      · rw [hdecide] at hs
        exact ⟨fun a ha => Nat.le_trans hs (Nat.le_of_lt (hanswer a ha)), hs⟩
    · right
      have hlt : (withoutSignal ⟨some s, answer, deadline⟩).2 < s := Nat.lt_of_not_le hs
      rcases hrest with ⟨a, hdecide, hanswer, ha⟩ | ⟨hdecide, hanswer⟩
      · left
        rw [hdecide] at hlt
        refine ⟨a, (if_neg hs).trans hdecide, hanswer, ?_, ha⟩
        intro s' hs'
        cases hs'
        exact hlt
      · right
        rw [hdecide] at hlt
        refine ⟨(if_neg hs).trans hdecide, ?_, hanswer⟩
        intro s' hs'
        cases hs'
        exact hlt

/-- No event is ready before the time that decides. -/
theorem poll_seenAt_of_lt (h : i < t.decide.2) : (t.seenAt i).poll = none := by
  -- What decides is no later than any of the three.
  rw [Readiness.poll_eq_none_iff, seenAt_signal_eq_false_iff, seenAt_answer_eq_false_iff,
    seenAt_deadline_eq_false_iff]
  rcases decide_cases t with ⟨s, hdecide, hs, ha, hd⟩ | ⟨a, hdecide, ha, hs, hd⟩ | ⟨hdecide, hs, ha⟩
  · rw [hdecide] at h
    rw [hs]
    refine ⟨?_, fun a h' => Nat.lt_of_lt_of_le h (ha a h'), Nat.lt_of_lt_of_le h hd⟩
    intro s' hs'
    cases hs'
    exact h
  · rw [hdecide] at h
    rw [ha]
    refine ⟨fun s h' => Nat.lt_trans h (hs s h'), ?_, Nat.lt_of_lt_of_le h hd⟩
    intro a' ha'
    cases ha'
    exact h
  · rw [hdecide] at h
    exact ⟨fun s h' => Nat.lt_trans h (hs s h'), fun a h' => Nat.lt_trans h (ha a h'), h⟩

/-- At the time that decides, a look finds the event that decides. -/
theorem poll_seenAt_decide : (t.seenAt t.decide.2).poll = some t.decide.1 := by
  rcases decide_cases t with ⟨s, hdecide, hs, -, -⟩ | ⟨a, hdecide, ha, hs, -⟩ | ⟨hdecide, hs, ha⟩
  · rw [hdecide, Readiness.poll_eq_signal_iff]
    simp [seenAt, hs]
  · rw [hdecide, Readiness.poll_eq_answer_iff, seenAt_signal_eq_false_iff]
    exact ⟨hs, by simp [seenAt, ha]⟩
  · rw [hdecide, Readiness.poll_eq_deadline_iff, seenAt_signal_eq_false_iff,
      seenAt_answer_eq_false_iff]
    exact ⟨hs, ha, by simp [seenAt]⟩

/-- **The times of the events decide what the looks find**, if these see the events up to the first
that is ready. -/
theorem decide_of_first (hfirst : looks.First n) (hsees : ∀ i ≤ n, looks i = t.seenAt i) :
    t.decide.2 = n ∧ (looks n).poll = some t.decide.1 := by
  have hn : t.decide.2 = n := by
    apply Nat.le_antisymm
    · -- Nothing would be ready at `n` if the deciding time were later.
      by_contra hlater
      apply hfirst.ready
      rw [hsees n (Nat.le_refl n)]
      exact poll_seenAt_of_lt (Nat.lt_of_not_le hlater)
    · -- An earlier look would have found the event.
      by_contra hearlier
      have hlt : t.decide.2 < n := Nat.lt_of_not_le hearlier
      have hquiet := hfirst.quiet _ hlt
      rw [hsees _ (Nat.le_of_lt hlt), poll_seenAt_decide] at hquiet
      cases hquiet
  refine ⟨hn, ?_⟩
  rw [hsees n (Nat.le_refl n), ← hn]
  exact poll_seenAt_decide

/-- There is always a first look that finds an event: the deadline comes. -/
theorem first_seenAt (t : Timeline) : Looks.First t.seenAt t.decide.2 where
  quiet := fun _ hi => poll_seenAt_of_lt hi
  ready := by
    rw [poll_seenAt_decide]
    exact Option.some_ne_none _

/-- Looks that come across an event see the events of some timeline until then. -/
theorem exists_of_first (hfirst : looks.First n) :
    ∃ t : Timeline, ∀ i ≤ n, looks i = t.seenAt i := by
  refine ⟨⟨if (looks n).signal then some n else none, if (looks n).answer then some n else none,
    if (looks n).deadline then n else n + 1⟩, ?_⟩
  intro i hi
  by_cases hlt : i < n
  · -- Nothing has been ready before.
    obtain ⟨hsignal, hanswer, hdeadline⟩ := Readiness.poll_eq_none_iff.mp (hfirst.quiet i hlt)
    ext
    · rw [hsignal, eq_comm, seenAt_signal_eq_false_iff]
      simp only [Option.ite_none_right_eq_some, Option.some.injEq]
      omega
    · rw [hanswer, eq_comm, seenAt_answer_eq_false_iff]
      simp only [Option.ite_none_right_eq_some, Option.some.injEq]
      omega
    · rw [hdeadline, eq_comm, seenAt_deadline_eq_false_iff]
      show i < if (looks n).deadline then n else n + 1
      split <;> omega
  · obtain rfl : i = n := Nat.le_antisymm hi (Nat.not_lt.mp hlt)
    ext
    · cases hsignal : (looks i).signal <;> simp [seenAt]
    · cases hanswer : (looks i).answer <;> simp [seenAt]
    · cases hdeadline : (looks i).deadline <;> simp [seenAt]

end Timeline

/-! ## §3. Queries. -/

namespace Query

variable {limits : QueryLimits} {collection : String} {filter : Mapping} {s : Setting}
  {c : Connection DocumentStore} {looks : Looks} {n : Nat}

/-- The times of the events of a query over a connection. -/
def timelineOf (limits : QueryLimits) (collection : String) (filter : Mapping)
    (c : Connection DocumentStore) (firesIn : Option Nat) : Timeline where
  signal := firesIn
  answer := (c.store.find (requestOf limits c.database collection filter)).delay
  deadline := limits.timeout

/-- The answer of the store to a query over a connection. -/
def answerOf (limits : QueryLimits) (collection : String) (filter : Mapping)
    (c : Connection DocumentStore) : Except StoreError (List Document) :=
  (c.store.find (requestOf limits c.database collection filter)).answer

/-- What a query brings, given how its find has ended. -/
def resultOf (limits : QueryLimits) (collection : String) : Ending → Except Error (List Mapping)
  | .cancelled => .error cancelledDuring
  | .late => .error (tooSlow limits collection)
  | .failed cause => .error (failed collection cause)
  | .returned ds => decodeResult limits collection ds

/-- **A find brings and reports what its ending says**, after the time that decides. -/
theorem find_eq (limits : QueryLimits) (collection : String) (filter : Mapping)
    (c : Connection DocumentStore) (firesIn : Option Nat) :
    let t := timelineOf limits collection filter c firesIn
    let e := Ending.of t.decide.1 (answerOf limits collection filter c)
    find limits collection filter c firesIn = {
      result := resultOf limits collection e
      request :=
        if t.reachesStore then some (requestOf limits c.database collection filter) else none
      event := some (.query (nanos t.decide.2) e.documents?)
      elapsed := t.decide.2 } := by
  unfold find timelineOf answerOf
  simp only
  generalize Timeline.decide _ = d
  generalize (c.store.find (requestOf limits c.database collection filter)).answer = answer
  obtain ⟨event, elapsed⟩ := d
  cases event with
  | signal => rfl
  | deadline => rfl
  | answer => cases answer <;> rfl

/-- Documents have come exactly if the answer is ready first and has some. -/
theorem documents?_eq_none_iff {r : Readiness} {event : FindEvent}
    {answer : Except StoreError (List Document)} (hpoll : r.poll = some event) :
    (Ending.of event answer).documents? = none ↔
      ¬ (r.signal = false ∧ r.answer = true ∧ ∃ ds, answer = .ok ds) := by
  cases event with
  | signal =>
    have hsignal := Readiness.poll_eq_signal_iff.mp hpoll
    simp [Ending.of, Ending.documents?, hsignal]
  | deadline =>
    have hanswer := (Readiness.poll_eq_deadline_iff.mp hpoll).2.1
    simp [Ending.of, Ending.documents?, hanswer]
  | answer =>
    obtain ⟨hsignal, hanswer⟩ := Readiness.poll_eq_answer_iff.mp hpoll
    cases answer with
    | error cause => simp [Ending.of, Ending.documents?]
    | ok ds => simp [Ending.of, Ending.documents?, hsignal, hanswer]

/-- What a query brings by the look that ends its find: the signal has the first say, the answer of
the store the second, and the deadline the last. -/
theorem resultOf_of_poll {r : Readiness} {event : FindEvent} (hpoll : r.poll = some event)
    (limits : QueryLimits) (collection : String) (answer : Except StoreError (List Document)) :
    (r.signal = true → resultOf limits collection (.of event answer) = .error cancelledDuring) ∧
    (r.signal = false → r.answer = true →
      (∀ ds, answer = .ok ds →
        resultOf limits collection (.of event answer) = decodeResult limits collection ds) ∧
      (∀ cause, answer = .error cause →
        resultOf limits collection (.of event answer) = .error (failed collection cause))) ∧
    (r.signal = false → r.answer = false →
      resultOf limits collection (.of event answer) = .error (tooSlow limits collection)) := by
  refine ⟨?_, ?_, ?_⟩
  · intro hsignal
    rw [Readiness.poll_eq_signal_iff.mpr hsignal] at hpoll
    cases hpoll
    rfl
  · intro hsignal hanswer
    rw [Readiness.poll_eq_answer_iff.mpr ⟨hsignal, hanswer⟩] at hpoll
    cases hpoll
    refine ⟨?_, ?_⟩
    · rintro ds rfl
      rfl
    · rintro cause rfl
      rfl
  · intro hsignal hanswer
    -- Some event is ready, and neither of the other two is.
    have hdeadline : r.deadline = true := by
      by_contra hnot
      rw [Readiness.poll_eq_none_iff.mpr ⟨hsignal, hanswer, Bool.eq_false_iff.mpr hnot⟩] at hpoll
      cases hpoll
    rw [Readiness.poll_eq_deadline_iff.mpr ⟨hsignal, hanswer, hdeadline⟩] at hpoll
    cases hpoll
    rfl

/-- **A query ends with its first event.**  Whatever the order in which the signal, the answer of
the store and the deadline become ready, the first look that finds one of them ready decides, the
signal before the answer and the answer before the deadline.  What the looks after it see changes
nothing.  The query brings what this event says, documents being counted before they are decoded,
and the counters of any world get one query more, which has failed unless documents have come. -/
theorem run_first_event (hconnection : s.connection = some c)
    (hcollection : IsCollectionName collection) (hfired : s.hasFired = false)
    (hfirst : looks.First n)
    (hsees : ∀ i ≤ n, looks i = (timelineOf limits collection filter c s.firesIn).seenAt i) :
    let o := run limits collection filter s
    let answer := answerOf limits collection filter c
    (∃ event, (looks n).poll = some event ∧ ∀ m, n < m → looks.watch m = some (event, n)) ∧
    o.elapsed = n ∧
    ((looks n).signal = true → o.result = .error
      (.query .cancelled "evaluation was canceled while the query was running" none)) ∧
    ((looks n).signal = false → (looks n).answer = true →
      (∀ ds, answer = .ok ds → o.result =
        if limits.maxDocuments < ds.length then
          .error (.query .resultTooLarge
            s!"find on `{collection}` matched more than {limits.maxDocuments} documents" none)
        else Document.decodeAll ds) ∧
      (∀ cause, answer = .error cause → o.result = .error
        (.query .storeFailure s!"find on `{collection}` failed" (some cause)))) ∧
    ((looks n).signal = false → (looks n).answer = false → o.result = .error
      (.query .deadlineExceeded s!"find on `{collection}` exceeded {limits.timeout}ms" none)) ∧
    ∃ documents?, o.event = some (.query (n * 1000000) documents?) ∧
      (documents? = none ↔
        ¬ ((looks n).signal = false ∧ (looks n).answer = true ∧ ∃ ds, answer = .ok ds)) ∧
      ∀ (w : World) (connector i : Nat) (m : Metrics), w.metrics.get? i = some m →
        ((World.access connector i).conclude o w).2.metrics.get? i = some { m with
          storeQueries := m.storeQueries + 1
          storeFailures := m.storeFailures + if documents?.isNone then 1 else 0
          documentsReturned := m.documentsReturned + documents?.getD 0
          queryMicros := m.queryMicros + n * 1000000 / 1000 } := by
  intro o answer
  obtain ⟨hn, hpoll⟩ := Timeline.decide_of_first hfirst hsees
  set t := timelineOf limits collection filter c s.firesIn with ht
  -- All checks are passed, so the query is its find, and the times decide what the looks find.
  have ho : o = _ := (run_of_permitted hconnection hcollection hfired).trans
    (find_eq limits collection filter c s.firesIn)
  rw [← ht, hn] at ho
  obtain ⟨hsignal, hanswer, hdeadline⟩ := resultOf_of_poll hpoll limits collection answer
  refine ⟨⟨_, hpoll, fun m hm => Looks.watch_of_first hfirst hpoll hm⟩, ?_, ?_, ?_, ?_, ?_⟩
  · rw [ho]
  · rw [ho]
    exact hsignal
  · rw [ho]
    exact hanswer
  · rw [ho]
    exact hdeadline
  · refine ⟨(Ending.of t.decide.1 answer).documents?, by rw [ho]; rfl, documents?_eq_none_iff hpoll,
      ?_⟩
    -- The one event of the query is all that the counters get.
    intro w connector i m hm
    show (w.settle connector i o.request o.event o.elapsed).metrics.get? i = _
    rw [ho, World.metrics_settle, World.get?_record, if_pos rfl, hm]
    rfl

/-- A store that answers after five milliseconds. -/
def unhurried : Connection DocumentStore where
  store :=
    { ping := fun _ => .ok ()
      find := fun _ => ⟨some 5, .ok [[("id", .int64 1)]]⟩ }
  database := "shop"

/-- A store that never answers. -/
def silent : Connection DocumentStore where
  store :=
    { ping := fun _ => .ok ()
      find := fun _ => ⟨none, .ok []⟩ }
  database := "shop"

/-- All three events become ready together, then the answer and the deadline, then the deadline
alone. -/
theorem run_first_event_tie :
    (let o := run ⟨5, 10⟩ "users" [] ⟨some unhurried, false, some 5⟩
     o.elapsed = 5 ∧ o.result = .error
       (.query .cancelled "evaluation was canceled while the query was running" none) ∧
     o.event = some (.query 5000000 none)) ∧
    (let o := run ⟨5, 10⟩ "users" [] ⟨some unhurried, false, none⟩
     o.elapsed = 5 ∧ o.result = .ok [[("id", .int 1)]]) ∧
    (let o := run ⟨5, 10⟩ "users" [] ⟨some silent, false, none⟩
     o.elapsed = 5 ∧ o.result = .error
       (.query .deadlineExceeded "find on `users` exceeded 5ms" none) ∧
     o.event = some (.query 5000000 none)) := by
  refine ⟨?_, ?_, ?_⟩
  · intro o
    have hfirst : Looks.First (Timeline.seenAt ⟨some 5, some 5, 5⟩) 5 := Timeline.first_seenAt _
    obtain ⟨-, helapsed, hsignal, -, -, documents?, hevent, hnone, -⟩ :=
      @run_first_event ⟨5, 10⟩ "users" [] ⟨some unhurried, false, some 5⟩ unhurried _ 5 rfl
        (by decide) rfl hfirst (fun _ _ => rfl)
    have hfailed : documents? = none := hnone.mpr (by rintro ⟨h, -⟩; cases h)
    rw [hfailed] at hevent
    exact ⟨helapsed, hsignal rfl, hevent⟩
  · intro o
    have hfirst : Looks.First (Timeline.seenAt ⟨none, some 5, 5⟩) 5 := Timeline.first_seenAt _
    obtain ⟨-, helapsed, -, hanswer, -⟩ :=
      @run_first_event ⟨5, 10⟩ "users" [] ⟨some unhurried, false, none⟩ unhurried _ 5 rfl
        (by decide) rfl hfirst (fun _ _ => rfl)
    exact ⟨helapsed, (hanswer rfl rfl).1 [[("id", .int64 1)]] rfl⟩
  · intro o
    have hfirst : Looks.First (Timeline.seenAt ⟨none, none, 5⟩) 5 := Timeline.first_seenAt _
    obtain ⟨-, helapsed, -, -, hdeadline, documents?, hevent, hnone, -⟩ :=
      @run_first_event ⟨5, 10⟩ "users" [] ⟨some silent, false, none⟩ silent _ 5 rfl
        (by decide) rfl hfirst (fun _ _ => rfl)
    have hfailed : documents? = none := hnone.mpr (by rintro ⟨-, h, -⟩; cases h)
    rw [hfailed] at hevent
    exact ⟨helapsed, hdeadline rfl rfl, hevent⟩

/-- **Every order of events is the order of some query**: any looks that come across an event are
looks at a query with any answer, any collection and any filter. -/
theorem exists_setting_of_first (hfirst : looks.First n) (maxDocuments : Nat)
    (answer : Except StoreError (List Document)) :
    ∃ timeout c firesIn, ∀ collection filter,
      answerOf ⟨timeout, maxDocuments⟩ collection filter c = answer ∧
      ∀ i ≤ n, looks i
        = (timelineOf ⟨timeout, maxDocuments⟩ collection filter c firesIn).seenAt i := by
  obtain ⟨t, ht⟩ := Timeline.exists_of_first hfirst
  refine ⟨t.deadline, ⟨⟨fun _ => .ok (), fun _ => ⟨t.answer, answer⟩⟩, ""⟩, t.signal, ?_⟩
  intro collection filter
  exact ⟨rfl, ht⟩

end Query

end PolicyLookup
