/-
  PolicyLookup.Proofs.Query.Ending — how finds end, and what is reported of them.

  A query either fails before anything has left for the store, and then nothing is reported of it,
  or sends one find and reports one event.  A find ends with documents, with a failure of the
  store, because its time is up, or because its signal fires; the event tells the number of
  documents in the first case and a failure in the others.  What the documents are worth afterwards
  does not matter to it.

  A signal that is ready when the find is looked at for the first time keeps the request back.  So
  it is assumed that a signal that has not fired is not due at that very moment.

    * `find_ending` — a find reports how it ended.
    * `call_ending` — nothing sent and nothing reported, or one find and one event.
-/

import PolicyLookup.Proofs.Query.Sent

namespace PolicyLookup

namespace Query

/-- How a find ends. -/
inductive Ending where
  | cancelled
  | late
  | failed (cause : StoreError)
  | returned (ds : List Document)

namespace Ending

/-- The ending of a find by the event that came first. -/
def of : FindEvent → Except StoreError (List Document) → Ending
  | .signal, _ => .cancelled
  | .deadline, _ => .late
  | .answer, .error cause => .failed cause
  | .answer, .ok ds => .returned ds

/-- How many documents have been returned, if any list of them has. -/
def documents? : Ending → Option Nat
  | .returned ds => some ds.length
  | _ => none

end Ending

/-- The ending of a find in a setting. -/
def ending (limits : QueryLimits) (s : Setting) (r : FindRequest) : Option Ending :=
  s.connection.map fun c =>
    .of (Timeline.decide ⟨s.firesIn, (c.store.find r).delay, limits.timeout⟩).1
      (c.store.find r).answer

/-- A signal that has not fired is not due at this very moment. -/
def Setting.Punctual (s : Setting) : Prop := s.hasFired = false → s.firesIn ≠ some 0

variable {limits : QueryLimits} {collection : String} {filter : Mapping} {s : Setting}

/-! ## §1. Finds. -/

/-- **A find reports how it ended**, and brings a result only if it has returned documents. -/
theorem find_ending {c : Connection DocumentStore} (hconnection : s.connection = some c)
    (hsignal : s.firesIn ≠ some 0) : ∃ r e nanos,
      (find limits collection filter c s.firesIn).request = some r ∧
      ending limits s r = some e ∧
      (find limits collection filter c s.firesIn).event = some (.query nanos e.documents?) := by
  -- Only a signal that is due now keeps the request back.
  have hreaches : ∀ t : Timeline, t.signal = s.firesIn → t.reachesStore = true := by
    intro t ht
    unfold Timeline.reachesStore
    rw [bne_iff_ne, ht]
    exact hsignal
  refine ⟨requestOf limits c.database collection filter, _, nanos (Timeline.decide ⟨s.firesIn,
    (c.store.find (requestOf limits c.database collection filter)).delay, limits.timeout⟩).2,
    ?_, by rw [ending, hconnection]; rfl, ?_⟩
  · unfold find
    simp only
    rw [if_pos (hreaches _ rfl)]
    split <;> rfl
  · unfold find
    simp only
    cases (Timeline.decide _).1 with
    | signal => rfl
    | deadline => rfl
    | answer => cases (c.store.find _).answer <;> rfl

/-! ## §2. Queries. -/

variable {α : Type}

/-- Nothing has been sent and nothing is reported of a query that has failed. -/
def Outcome.IsRefused (o : Outcome α) : Prop := ∃ e, o = .refused e

/-- One find has been sent, and one event tells how it ended. -/
def Outcome.Tells (limits : QueryLimits) (s : Setting) (o : Outcome α) : Prop :=
  ∃ r e nanos, o.request = some r ∧ ending limits s r = some e ∧
    o.event = some (.query nanos e.documents?)

theorem run_ending (limits : QueryLimits) (collection : String) (filter : Mapping)
    (hs : s.Punctual) : (run limits collection filter s).IsRefused ∨
    (run limits collection filter s).Tells limits s := by
  unfold run
  cases hpermit : permit collection s with
  | error e => exact Or.inl ⟨e, rfl⟩
  | ok c =>
    obtain ⟨hconnection, -, hfired⟩ := permit_eq_ok_iff.mp hpermit
    exact Or.inr (find_ending hconnection (hs hfired))

/-- **A call sends nothing and reports nothing, or sends one find and reports its ending.** -/
theorem call_ending (limits : QueryLimits) (thread : Thread) (args : List Value) (hs : s.Punctual) :
    (call limits thread args s).IsRefused ∨ (call limits thread args s).Tells limits s := by
  unfold call
  split
  · split
    · exact Or.inl ⟨_, rfl⟩
    · split
      · exact Or.inl ⟨_, rfl⟩
      · split
        · -- Both arguments are fine: the call is its query.
          refine (run_ending limits _ _ hs).imp (fun hrefused => ?_) id
          obtain ⟨e, he⟩ := hrefused
          exact ⟨e, by rw [he]; rfl⟩
        · exact Or.inl ⟨_, rfl⟩
  · exact Or.inl ⟨_, rfl⟩

end Query

end PolicyLookup
