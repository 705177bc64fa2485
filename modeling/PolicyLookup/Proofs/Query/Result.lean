/-
  PolicyLookup.Proofs.Query.Result — what a find has returned can be answered.

  Both ways into native values let finite doubles through only: terms have no others, and documents
  with others are refused.  A value without infinities and NaNs has a document, a term and a key.
  So once the documents of a find have been decoded, nothing that is done with them afterwards
  fails: they are an array of objects, as declared, and there is a term for it.

    * `Value.exists_encodeJson`, `Value.exists_toTerm_of_isFinite` — finite doubles suffice.
    * `accepts_resultValue`, `isFinite_resultValue` — results.
    * `call_result_of_ending` — a find that has returned documents brings what they decode to.
-/

import PolicyLookup.Proofs.Bson.Decoding
import PolicyLookup.Proofs.Query.Ending
import PolicyLookup.Proofs.Query.Typing
import PolicyLookup.Proofs.Term.Stored

namespace PolicyLookup

/-! ## §1. Finite doubles suffice. -/

/-- What every partner of something has, all members of a list of partners have. -/
theorem forall_mem_of_forall₂ {α β : Type} {R : α → β → Prop} {P : β → Prop} {as : List α}
    {bs : List β} (h : List.Forall₂ R as bs) (hP : ∀ a b, R a b → P b) : ∀ b ∈ bs, P b := by
  induction h with
  | nil => simp
  | cons hab _ ih => simpa using ⟨hP _ _ hab, ih⟩

namespace Value

variable {v : Value}

theorem exists_encodeJson (h : ∀ x ∈ v.floats, x.isFinite = true) :
    ∃ j, v.encodeJson = .ok j := by
  obtain ⟨j, hj⟩ := exists_toJson h
  refine ⟨j, ?_⟩
  rw [encodeJson, hj]
  rfl

theorem exists_toTerm_of_isFinite (h : ∀ x ∈ v.floats, x.isFinite = true) :
    ∃ t, v.toTerm = .ok t := by
  obtain ⟨j, hj⟩ := exists_encodeJson h
  refine ⟨.ofJson j, ?_⟩
  rw [toTerm, hj]
  rfl

end Value

/-- Decoded arguments have finite doubles only. -/
theorem Term.isFinite_of_decodeArgument {t : Term} {shape : Shape} {position : Nat} {v : Value}
    (h : t.decodeArgument shape position = .ok v) : ∀ x ∈ v.floats, x.isFinite = true :=
  t.isFinite_of_toValue (decodeArgument_eq_ok_iff.mp h).1

namespace Query

/-! ## §2. Results. -/

/-- A result is an array of objects, as declared. -/
theorem accepts_resultValue (ms : List Mapping) :
    signature.result.accepts (resultValue ms) = true := by
  show (ms.map Value.map).all Shape.object.accepts = true
  rw [List.all_eq_true]
  intro v hv
  obtain ⟨m, -, rfl⟩ := List.mem_map.mp hv
  rfl

/-- A result has finite doubles only. -/
theorem isFinite_resultValue {ds : List Document} {ms : List Mapping}
    (h : Document.decodeAll ds = .ok ms) : ∀ x ∈ (resultValue ms).floats, x.isFinite = true := by
  -- Each mapping has been decoded from one of the documents.
  have hmappings : ∀ m ∈ ms, ∀ x ∈ Value.entriesFloats m, x.isFinite = true :=
    forall_mem_of_forall₂ (Document.decodeAll_eq_ok_iff.mp h) fun d m hdecode =>
      (Document.ordered_and_finite_of_decode hdecode).2
  intro x hx
  obtain ⟨v, hv, hxv⟩ := Value.mem_itemsFloats.mp hx
  obtain ⟨m, hm, rfl⟩ := List.mem_map.mp hv
  exact hmappings m hm x hxv

/-! ## §3. Finds that have returned documents. -/

variable {limits : QueryLimits} {s : Setting} {r : FindRequest} {ds : List Document}

/-- A request that has left over a connection is the one of the query. -/
theorem find_request {collection : String} {filter : Mapping} {c : Connection DocumentStore}
    {firesIn : Option Nat} (h : (find limits collection filter c firesIn).request = some r) :
    r = requestOf limits c.database collection filter := by
  unfold find at h
  simp only at h
  split at h <;> exact (Option.some.inj (Option.ite_none_right_eq_some.mp h).2).symm

/-- A find that has returned documents brings what they decode to, unless they are too many. -/
theorem run_result_of_ending {collection : String} {filter : Mapping}
    (hrequest : (run limits collection filter s).request = some r)
    (hending : ending limits s r = some (.returned ds)) :
    (run limits collection filter s).result = decodeResult limits collection ds := by
  unfold run at hrequest ⊢
  cases hpermit : permit collection s with
  | error e =>
    rw [hpermit] at hrequest
    cases hrequest
  | ok c =>
    rw [hpermit] at hrequest
    obtain rfl := find_request hrequest
    unfold ending at hending
    rw [(permit_eq_ok_iff.mp hpermit).1, Option.map_some] at hending
    show (find limits collection filter c s.firesIn).result = _
    unfold find
    simp only
    cases hdecide : (Timeline.decide _).1 with
    | signal => simp [hdecide, Ending.of] at hending
    | deadline => simp [hdecide, Ending.of] at hending
    | answer =>
      rw [hdecide] at hending
      cases hanswer : (c.store.find (requestOf limits c.database collection filter)).answer with
      | error cause => simp [hanswer, Ending.of] at hending
      | ok ds' =>
        rw [hanswer] at hending
        cases hending
        rfl

/-- **A call whose find has returned documents** that are not too many and can be decoded brings
their value. -/
theorem call_result_of_ending {thread : Thread} {collection : String} {filter : Mapping}
    {ms : List Mapping}
    (hrequest : (call limits thread [.str collection, .map filter] s).request = some r)
    (hending : ending limits s r = some (.returned ds)) (hlength : ds.length ≤ limits.maxDocuments)
    (hdecode : Document.decodeAll ds = .ok ms) :
    (call limits thread [.str collection, .map filter] s).result = .ok (resultValue ms) := by
  rw [call_of_arguments] at hrequest ⊢
  split at hrequest
  · next hblock =>
    rw [if_pos hblock]
    have hresult := run_result_of_ending hrequest hending
    show (run limits collection filter s).result.map resultValue = _
    rw [hresult, decodeResult, if_neg (Nat.not_lt.mpr hlength), hdecode]
    rfl
  · cases hrequest

end Query

end PolicyLookup
