/-
  PolicyLookup.Proofs.Query.Sent — what a query that brings a result has sent and reported.

  A query that brings a result has passed every check and has got an answer; so its one request has
  left for the store, and it is counted as one query.  Whatever its signal, the store and the
  clock did, there is no other way to a result, and no second request.

    * `call_eq_ok` — one request, answered, and one event.
    * `arguments_eq_ok` — the arguments of a call are a collection and a filter.
-/

import PolicyLookup.Proofs.Evaluation.Arguments
import PolicyLookup.Proofs.Query.Preconditions
import PolicyLookup.Query.Function

namespace PolicyLookup

namespace Query

/-! ## §1. Queries that bring a result. -/

variable {limits : QueryLimits} {collection : String} {filter : Mapping} {s : Setting}

/-- A find that is ended by the answer has left for the store: only a signal that is ready at
once keeps it back. -/
theorem reachesStore_of_decide {t : Timeline} {elapsed : Nat} (h : t.decide = (.answer, elapsed)) :
    t.reachesStore = true := by
  unfold Timeline.reachesStore
  rw [bne_iff_ne]
  intro hs
  unfold Timeline.decide at h
  rw [hs] at h
  simp only [Nat.zero_le, if_true] at h
  cases h

/-- The store has answered a find that brings a result. -/
theorem find_eq_ok {c : Connection DocumentStore} {firesIn : Option Nat} {ms : List Mapping}
    (h : (find limits collection filter c firesIn).result = .ok ms) :
    ∃ r nanos n ds, (find limits collection filter c firesIn).request = some r
      ∧ (find limits collection filter c firesIn).event = some (.query nanos n)
      ∧ (c.store.find r).answer = .ok ds := by
  unfold find at h ⊢
  simp only at h ⊢
  cases hdecide : Timeline.decide ⟨firesIn,
      (c.store.find (requestOf limits c.database collection filter)).delay, limits.timeout⟩ with
  | mk event elapsed =>
    rw [hdecide] at h
    cases hanswer : (c.store.find (requestOf limits c.database collection filter)).answer with
    | error cause =>
      rw [hanswer] at h
      cases event <;> cases h
    | ok ds =>
      cases event with
      | signal => cases h
      | deadline => cases h
      | answer =>
        rw [if_pos (reachesStore_of_decide hdecide)]
        exact ⟨_, _, _, ds, rfl, rfl, hanswer⟩

theorem run_eq_ok {ms : List Mapping} (h : (run limits collection filter s).result = .ok ms) :
    ∃ c r nanos n ds, s.connection = some c
      ∧ (run limits collection filter s).request = some r
      ∧ (run limits collection filter s).event = some (.query nanos n)
      ∧ (c.store.find r).answer = .ok ds := by
  unfold run at h ⊢
  cases hpermit : permit collection s with
  | error e =>
    rw [hpermit] at h
    cases h
  | ok c =>
    rw [hpermit] at h
    obtain ⟨r, nanos, n, ds, hfind⟩ := find_eq_ok h
    exact ⟨c, r, nanos, n, ds, (permit_eq_ok_iff.mp hpermit).1, hfind⟩

variable {thread : Thread} {args : List Value} {v : Value}

/-- A call that brings a result is a query. -/
theorem call_eq_run (h : (call limits thread args s).result = .ok v) :
    ∃ name m, call limits thread args s = (run limits name m s).map resultValue := by
  match args with
  | [] => cases h
  | [_] => cases h
  | _ :: _ :: _ :: _ => cases h
  | [collection, filter] =>
    cases collection with
    | str name =>
      cases filter with
      | map m =>
        refine ⟨name, m, ?_⟩
        cases hblock : thread.mayBlock with
        | true =>
          unfold call
          exact if_pos hblock
        | false =>
          unfold call at h
          rw [hblock] at h
          cases h
      | _ => cases h
    | _ => cases h

/-- **A query that brings a result** has found a connection, has sent one request, which the store
has answered, and is counted as one query. -/
theorem call_eq_ok (h : (call limits thread args s).result = .ok v) :
    ∃ c r nanos n ds, s.connection = some c ∧ (call limits thread args s).request = some r
      ∧ (call limits thread args s).event = some (.query nanos n)
      ∧ (c.store.find r).answer = .ok ds := by
  obtain ⟨name, m, hrun⟩ := call_eq_run h
  rw [hrun] at h ⊢
  obtain ⟨ms, hms, -⟩ := exists_of_map_eq_ok h
  exact run_eq_ok hms

end Query

/-! ## §2. Arguments. -/

namespace Shape

theorem exists_str_of_accepts {v : Value} (h : string.accepts v = true) : ∃ s, v = .str s := by
  cases v with
  | str s => exact ⟨s, rfl⟩
  | _ => cases h

theorem exists_map_of_accepts {v : Value} (h : object.accepts v = true) : ∃ m, v = .map m := by
  cases v with
  | map m => exact ⟨m, rfl⟩
  | _ => cases h

end Shape

/-- The arguments of a query are a collection and a filter. -/
theorem Query.arguments_eq_ok {terms : List Term} {args : List Value}
    (h : CallSite.arguments signature terms = .ok args) :
    ∃ collection filter, args = [.str collection, .map filter] := by
  unfold CallSite.arguments at h
  split at h
  · cases h
  · next hlength =>
    match terms with
    | [] => exact absurd (by intro h; cases h) hlength
    | [_] => exact absurd (by intro h; cases h) hlength
    | _ :: _ :: _ :: _ => exact absurd (by intro h; cases h) hlength
    | [t, u] =>
      obtain ⟨v, rest, rfl, -, hv, hrest⟩ := CallSite.decodeArgs_cons_eq_ok h
      obtain ⟨v', rest', rfl, -, hv', hnil⟩ := CallSite.decodeArgs_cons_eq_ok hrest
      obtain ⟨collection, rfl⟩ := Shape.exists_str_of_accepts hv
      obtain ⟨filter, rfl⟩ := Shape.exists_map_of_accepts hv'
      cases hnil
      exact ⟨collection, filter, rfl⟩

end PolicyLookup
