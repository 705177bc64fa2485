/-
  PolicyLookup.Proofs.Query.Complete — a query brings all documents that match, or none.

  A request asks for one document more than a result may have.  So the store may cut its answer,
  but an answer that was cut is longer than allowed, and is refused as a whole; an answer that is
  not too long has not been cut.  Only then are its documents decoded.

    * `run_of_undisturbed` — what nothing disturbs ends with the documents that the store selects.
    * `decodeResult_select` — one document more than allowed tells whether there are too many.
    * `run_complete_or_refused` — the result of a query, told by the documents that match.
-/

import PolicyLookup.Proofs.Bson.Decoding
import PolicyLookup.Proofs.Query.Preconditions
import PolicyLookup.Store.Memory

namespace PolicyLookup

/-! ## §1. What a store in memory selects. -/

/-- The documents of a collection that match a filter, in the order of their insertion. -/
def MemoryStore.matching (store : MemoryStore) (database collection : String)
    (filter : Document) : List Document :=
  (documents store.collections (namespaceOf database collection)).filter (selects filter)

theorem MemoryStore.select_eq_take (store : MemoryStore) (r : FindRequest) :
    store.select r = (store.matching r.database r.collection r.filter).take r.maxDocuments := rfl

namespace Query

variable {limits : QueryLimits} {collection database : String} {store : MemoryStore}
  {filter : Mapping} {s : Setting}

/-! ## §2. Queries that get their answer. -/

/-- A query of a valid collection over a connection to a store in memory that does not fail, with
enough time, under a signal that does not fire before the store has answered. -/
structure Undisturbed (limits : QueryLimits) (collection : String) (store : MemoryStore)
    (database : String) (s : Setting) : Prop where
  connection : s.connection = some ⟨store.asStore, database⟩
  valid : IsCollectionName collection
  unfired : s.hasFired = false
  calm : ∀ t, s.firesIn = some t → store.findDelay < t
  findFailure : store.findFailure = none
  findDelay : store.findDelay < limits.timeout

/-- An answer that comes in time ends the find. -/
theorem decide_of_answer {t : Timeline} {a : Nat} (ha : t.answer = some a) (hin : a ≤ t.deadline)
    (hcalm : ∀ s, t.signal = some s → a < s) : t.decide = (.answer, a) := by
  have hwithout : t.withoutSignal = (.answer, a) := by
    unfold Timeline.withoutSignal
    simp only [ha, if_pos hin]
  unfold Timeline.decide
  rw [hwithout]
  cases hs : t.signal with
  | none => rfl
  | some s =>
    have hlate : ¬ s ≤ a := by
      have := hcalm s hs
      omega
    simp only [if_neg hlate]

/-- What nothing disturbs ends with the documents that the store selects. -/
theorem run_of_undisturbed (h : Undisturbed limits collection store database s) :
    (run limits collection filter s).result
      = decodeResult limits collection
          (store.select (requestOf limits database collection filter)) := by
  have hanswer : store.answer (requestOf limits database collection filter)
      = .ok (store.select (requestOf limits database collection filter)) := by
    unfold MemoryStore.answer
    rw [h.findFailure]
  have hdecide : Timeline.decide ⟨s.firesIn, some store.findDelay, limits.timeout⟩
      = (.answer, store.findDelay) :=
    decide_of_answer rfl (Nat.le_of_lt h.findDelay) h.calm
  rw [run_of_permitted h.connection h.valid h.unfired]
  simp only [find, MemoryStore.asStore, hdecide, hanswer, received]

/-! ## §3. One document more than allowed. -/

/-- A list cut behind one element too many is too long exactly if the list is. -/
theorem lt_length_take {α : Type} {xs : List α} {m k : Nat} (hk : m < k) :
    m < (xs.take k).length ↔ m < xs.length := by
  rw [List.length_take]
  omega

/-- **The answer tells whether there are too many documents**; if there are not, it has all of
them. -/
theorem decodeResult_select
    (hcount : limits.maxDocuments < largestCount ∨
      (store.matching database collection (Document.ofMapping filter)).length ≤ largestCount) :
    decodeResult limits collection (store.select (requestOf limits database collection filter))
      = if limits.maxDocuments
            < (store.matching database collection (Document.ofMapping filter)).length then
          .error (tooMany limits collection)
        else Document.decodeAll
          (store.matching database collection (Document.ofMapping filter)) := by
  obtain ⟨matching, hmatching⟩ : ∃ matching,
      matching = store.matching database collection (Document.ofMapping filter) := ⟨_, rfl⟩
  have hselect : store.select (requestOf limits database collection filter)
      = matching.take (min (limits.maxDocuments + 1) largestCount) := by
    rw [hmatching]
    exact store.select_eq_take _
  rw [← hmatching] at hcount
  rw [← hmatching, hselect]
  unfold decodeResult
  by_cases hmany : limits.maxDocuments < matching.length
  · -- Then the count of the request was not cut short, and one document too many came back.
    have hk : limits.maxDocuments < min (limits.maxDocuments + 1) largestCount := by omega
    rw [if_pos hmany, if_pos ((lt_length_take hk).mpr hmany)]
  · have hall : matching.take (min (limits.maxDocuments + 1) largestCount) = matching := by
      apply List.take_of_length_le
      omega
    rw [if_neg hmany, hall, if_neg hmany]

/-! ## §4. The result of a query. -/

/-- **Complete or refused, never truncated.**  For a query that nothing disturbs let `matching` be
the documents of its collection that match its filter, in the order of their insertion.  Then the
query fails because of too many documents exactly if there are more than allowed, whatever they
are; else it fails with an error of encoding exactly if one of them cannot be decoded; else it
brings the mappings of all of them in their order.  It brings nothing only where nothing matches.

A count of documents has 64 bits.  Where a query allows the largest count there is, there must be
no more documents than can be counted. -/
theorem run_complete_or_refused (h : Undisturbed limits collection store database s)
    (hcount : limits.maxDocuments < 18446744073709551615 ∨
      (store.matching database collection (Document.ofMapping filter)).length
        ≤ 18446744073709551615) :
    let matching := store.matching database collection (Document.ofMapping filter)
    let result := (run limits collection filter s).result
    ((∃ e, result = .error e ∧ e.queryFailure? = some .resultTooLarge)
        ↔ limits.maxDocuments < matching.length) ∧
      ((∃ message path, result = .error (.encoding message path))
        ↔ matching.length ≤ limits.maxDocuments ∧ ∃ d ∈ matching, ¬ d.HasMapping) ∧
      (∀ ms, result = .ok ms
        ↔ matching.length ≤ limits.maxDocuments
          ∧ List.Forall₂ (fun d m => d.decode = .ok m) matching ms) ∧
      (result = .ok [] ↔ matching = []) := by
  intro matching result
  have hresult : result = if limits.maxDocuments < matching.length then
      .error (tooMany limits collection) else Document.decodeAll matching :=
    (run_of_undisturbed h).trans (decodeResult_select hcount)
  by_cases hmany : limits.maxDocuments < matching.length
  · have hne : matching ≠ [] := List.ne_nil_of_length_pos (by omega)
    have hfew : ¬ matching.length ≤ limits.maxDocuments := by omega
    rw [if_pos hmany] at hresult
    rw [hresult]
    refine ⟨⟨fun _ => hmany, fun _ => ⟨_, rfl, rfl⟩⟩, ⟨?_, fun hbad => absurd hbad.1 hfew⟩,
      fun ms => ⟨nofun, fun hms => absurd hms.1 hfew⟩, ⟨nofun, fun hnil => absurd hnil hne⟩⟩
    rintro ⟨message, path, he⟩
    cases he
  · have hfew : matching.length ≤ limits.maxDocuments := by omega
    rw [if_neg hmany] at hresult
    rw [hresult]
    refine ⟨⟨?_, fun hlt => absurd hlt hmany⟩, ⟨?_, ?_⟩, ?_, ?_⟩
    · rintro ⟨e, he, hfailure⟩
      -- Decoding fails with errors of encoding, which are not failures of queries.
      obtain ⟨message, path, rfl⟩ := Document.decodeAll_error he
      cases hfailure
    · rintro ⟨message, path, he⟩
      exact ⟨hfew, Document.decodeAll_eq_error_iff.mp ⟨_, he⟩⟩
    · rintro ⟨-, hbad⟩
      obtain ⟨e, he⟩ := Document.decodeAll_eq_error_iff.mpr hbad
      obtain ⟨message, path, rfl⟩ := Document.decodeAll_error he
      exact ⟨message, path, he⟩
    · intro ms
      rw [Document.decodeAll_eq_ok_iff]
      exact ⟨fun hms => ⟨hfew, hms⟩, fun hms => hms.2⟩
    · rw [Document.decodeAll_eq_ok_iff, List.forall₂_nil_right_iff]

/-- Two events, the second of which has a part that cannot be decoded. -/
def eventStore : MemoryStore :=
  MemoryStore.empty.insert "shop" "events" [[("seq", .int64 0)], [("seq", .binary ⟨0, [255]⟩)]]

/-- A query over a connection to the events. -/
def eventSetting : Setting := ⟨some ⟨eventStore.asStore, "shop"⟩, false, none⟩

theorem undisturbed_events {limits : QueryLimits} (h : 0 < limits.timeout) :
    Undisturbed limits "events" eventStore "shop" eventSetting where
  connection := rfl
  valid := by decide
  unfired := rfl
  calm := nofun
  findFailure := rfl
  findDelay := h

theorem run_complete_or_refused_events :
    (∃ e, (run ⟨5000, 1⟩ "events" [] eventSetting).result = .error e
        ∧ e.queryFailure? = some .resultTooLarge)
      ∧ ∃ message path, (run ⟨5000, 2⟩ "events" [] eventSetting).result
        = .error (.encoding message path) := by
  have hmatching : eventStore.matching "shop" "events" (Document.ofMapping [])
      = [[("seq", .int64 0)], [("seq", .binary ⟨0, [255]⟩)]] := rfl
  constructor
  · refine (run_complete_or_refused (undisturbed_events (by decide)) (Or.inl (by decide))).1.mpr ?_
    rw [hmatching]
    decide
  · refine (run_complete_or_refused (undisturbed_events (by decide))
      (Or.inl (by decide))).2.1.mpr ?_
    rw [hmatching]
    refine ⟨by decide, [("seq", .binary ⟨0, [255]⟩)], .tail _ (.head _), ?_⟩
    rintro ⟨m, hm⟩
    cases hm

end Query

end PolicyLookup
