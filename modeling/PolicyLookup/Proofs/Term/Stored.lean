/-
  PolicyLookup.Proofs.Term.Stored — stored documents on their way through a policy to a filter.

  What is found in a document has its keys in order and no double that is not finite, so it can
  always be shown to a policy.  When the policy hands it back as a filter, the doubles whose
  shortest text denotes an integer have become integers, and everything else is as it was found.
  The filter that is sent then is the one that the document itself would have made exactly if there
  was no such double.

    * `ordered_and_finite_of_toValue` — what is found in the store.
    * `decodeArgument_of_decode` — the whole trip, and the filter at its end.
    * `integral_changes` — a document whose double does not come back.
-/

import PolicyLookup.Proofs.Bson.RoundTrip
import PolicyLookup.Proofs.Term.RoundTrip

namespace PolicyLookup

/-! ## §1. What is found in the store. -/

/-- A mapping that is made of some entries has what they have. -/
theorem Value.ordered_and_finite_ofList {entries : List (String × Value)}
    (h : EntriesOrdered entries ∧ ∀ x ∈ entriesFloats entries, x.isFinite = true) :
    (Value.map (Keyed.ofList entries)).Ordered ∧
      ∀ x ∈ (Value.map (Keyed.ofList entries)).floats, x.isFinite = true := by
  refine ⟨⟨Keyed.ascending_ofList entries, entriesOrdered_iff.mpr fun e he => ?_⟩, fun x hx => ?_⟩
  · exact entriesOrdered_iff.mp h.1 e (Keyed.mem_of_mem_ofList he)
  · obtain ⟨e, he, hxe⟩ := mem_entriesFloats.mp hx
    exact h.2 x (mem_entriesFloats.mpr ⟨e, Keyed.mem_of_mem_ofList he, hxe⟩)

namespace Bson

mutual

/-- **What is found in the store** has its keys in order and finite doubles only. -/
theorem ordered_and_finite_of_toValue : ∀ (b : Bson) {v : Value}, b.toValue = .ok v →
    v.Ordered ∧ ∀ x ∈ v.floats, x.isFinite = true
  | .null, _, h => by cases h; exact ⟨trivial, nofun⟩
  | .bool _, _, h => by cases h; exact ⟨trivial, nofun⟩
  | .str _, _, h => by cases h; exact ⟨trivial, nofun⟩
  | .int32 _, _, h => by cases h; exact ⟨trivial, nofun⟩
  | .int64 _, _, h => by cases h; exact ⟨trivial, nofun⟩
  | .objectId _, _, h => by cases h; exact ⟨trivial, nofun⟩
  | .double x, _, h => by
    rw [toValue] at h
    split at h
    · next hx =>
      cases h
      exact ⟨trivial, List.forall_mem_singleton.mpr hx⟩
    · cases h
  | .date ms, _, h => by
    rw [toValue] at h
    split at h
    · cases h
      exact ⟨trivial, nofun⟩
    · cases h
  | .arr items, _, h => by
    obtain ⟨vs, hvs, rfl⟩ := exists_of_map_eq_ok h
    exact ordered_and_finite_of_toValues 0 items hvs
  | .doc fields, _, h => by
    obtain ⟨entries, hentries, rfl⟩ := exists_of_map_eq_ok h
    exact Value.ordered_and_finite_ofList (ordered_and_finite_of_toEntries fields hentries)
  | .binary _, _, h => by cases h
  | .decimal128 _, _, h => by cases h
  | .regex _ _, _, h => by cases h
  | .code _, _, h => by cases h
  | .scopedCode _ _, _, h => by cases h
  | .timestamp _ _, _, h => by cases h
  | .symbol _, _, h => by cases h
  | .dbPointer _ _, _, h => by cases h
  | .minKey, _, h => by cases h
  | .maxKey, _, h => by cases h
  | .undefined, _, h => by cases h

theorem ordered_and_finite_of_toValues : ∀ (i : Nat) (items : List Bson) {vs : List Value},
    toValues i items = .ok vs →
      Value.AllOrdered vs ∧ ∀ x ∈ Value.itemsFloats vs, x.isFinite = true
  | _, [], _, h => by cases h; exact ⟨trivial, nofun⟩
  | i, b :: rest, _, h => by
    rw [toValues] at h
    split at h
    · cases h
    · next v hv =>
      obtain ⟨vs, hvs, rfl⟩ := exists_of_map_eq_ok h
      obtain ⟨hordered, hfinite⟩ := ordered_and_finite_of_toValue b hv
      obtain ⟨hordered', hfinite'⟩ := ordered_and_finite_of_toValues (i + 1) rest hvs
      exact ⟨⟨hordered, hordered'⟩, List.forall_mem_append.mpr ⟨hfinite, hfinite'⟩⟩

theorem ordered_and_finite_of_toEntries : ∀ (fields : List (String × Bson))
    {entries : List (String × Value)}, toEntries fields = .ok entries →
      Value.EntriesOrdered entries ∧ ∀ x ∈ Value.entriesFloats entries, x.isFinite = true
  | [], _, h => by cases h; exact ⟨trivial, nofun⟩
  | (k, b) :: rest, _, h => by
    rw [toEntries] at h
    split at h
    · cases h
    · next v hv =>
      obtain ⟨entries, hentries, rfl⟩ := exists_of_map_eq_ok h
      obtain ⟨hordered, hfinite⟩ := ordered_and_finite_of_toValue b hv
      obtain ⟨hordered', hfinite'⟩ := ordered_and_finite_of_toEntries rest hentries
      exact ⟨⟨hordered, hordered'⟩, List.forall_mem_append.mpr ⟨hfinite, hfinite'⟩⟩

end

end Bson

theorem Document.ordered_and_finite_of_decode {d : Document} {m : Mapping} (h : d.decode = .ok m) :
    (Value.map m).Ordered ∧ ∀ x ∈ Value.entriesFloats m, x.isFinite = true := by
  unfold Document.decode Document.toMapping at h
  cases hentries : Bson.toEntries d with
  | error l =>
    rw [hentries] at h
    cases h
  | ok entries =>
    rw [hentries] at h
    cases h
    exact Value.ordered_and_finite_ofList (Bson.ordered_and_finite_of_toEntries d hentries)

/-! ## §2. What the policy hands back. -/

/-- A double comes back as a double exactly if its shortest text denotes no integer of the signed
range. -/
theorem Binary64.returned_eq_float_iff {x : Binary64} :
    x.returned = .float x ↔ ∀ n : Int64, ¬ x.Denotes n.toInt := by
  constructor
  · intro h n hn
    rw [returned_of_denotes hn] at h
    cases h
  · intro hnone
    rcases returned_cases x with ⟨n, hn, -⟩ | ⟨-, h⟩
    · exact absurd hn (hnone n)
    · exact h

namespace Value

theorem entriesMapFloats_returned_eq_self_iff {m : Mapping} :
    entriesMapFloats Binary64.returned m = m ↔
      ∀ x ∈ entriesFloats m, ∀ n : Int64, ¬ x.Denotes n.toInt := by
  constructor
  · intro h x hx
    exact Binary64.returned_eq_float_iff.mp (eq_float_of_entriesMapFloats_eq_self m h x hx)
  · intro h
    exact entriesMapFloats_eq_self m fun x hx => Binary64.returned_eq_float_iff.mpr (h x hx)

/-- What is handed back makes the same filter only if it is the same mapping. -/
theorem ofMapping_returned_eq_iff {m : Mapping} (hordered : (Value.map m).Ordered)
    (hfinite : ∀ x ∈ entriesFloats m, x.isFinite = true) :
    Document.ofMapping (entriesMapFloats Binary64.returned m) = Document.ofMapping m ↔
      entriesMapFloats Binary64.returned m = m := by
  constructor
  · refine Bson.ofEntries_injective (ordered_mapFloats Binary64.ordered_returned _ hordered)
      hordered ?_ hfinite
    -- A double that is still there has been there before.
    intro y hy
    obtain ⟨x, hx, hyx⟩ := mem_entriesFloats_mapFloats m hy
    obtain ⟨rfl, -⟩ := Binary64.returned_of_mem hyx
    exact hfinite y hx
  · intro h
    rw [h]

end Value

namespace Term

variable {t : Term} {m : Mapping}

/-- A term that stands for a mapping is an object argument. -/
theorem decodeArgument_object_of_settle {refused : Option Int} (position : Nat)
    (h : t.toValue = settle refused (.map m)) :
    (refused = none → t.decodeArgument .object position = .ok (.map m)) ∧
      ∀ v, t.decodeArgument .object position = .ok v → v = .map m := by
  unfold decodeArgument
  rw [h]
  cases refused with
  | none => exact ⟨fun _ => rfl, fun v hv => (Except.ok.inj hv).symm⟩
  | some n => exact ⟨nofun, nofun⟩

end Term

namespace Document

variable {d : Document} {m : Mapping}

/-- **The trip of a stored document through a policy.**  What is found in the document has a term,
and the policy can hand the term back as an object argument, at least if no double has for its
shortest text an integer above the signed range that fits 64 unsigned bits.  What is decoded then
is what was found, but that each double whose text denotes an integer of the signed range has become
that integer, which is rounded to an equal double; all others are there bit for bit.  So it is
exactly what was found if and only if there is no such double, and only then does it make the same
filter. -/
theorem decodeArgument_of_decode (h : d.decode = .ok m) (position : Nat) :
    ∃ t u, (Value.map m).toTerm = .ok t ∧ u = Value.entriesMapFloats Binary64.returned m ∧
      ((∀ x ∈ Value.entriesFloats m, ∀ n : Int, x.Denotes n →
          n < 9223372036854775808 ∨ 18446744073709551616 ≤ n) →
        t.decodeArgument .object position = .ok (.map u)) ∧
      (∀ v, t.decodeArgument .object position = .ok v → v = .map u) ∧
      (∀ x ∈ Value.entriesFloats m,
        (∀ n : Int64, x.Denotes n.toInt →
          x.returned = .int n ∧ (Binary64.ofRat n.toInt).same x = true) ∧
        ((∀ n : Int64, ¬ x.Denotes n.toInt) → x.returned = .float x)) ∧
      (u = m ↔ ∀ x ∈ Value.entriesFloats m, ∀ n : Int64, ¬ x.Denotes n.toInt) ∧
      (ofMapping u = ofMapping m ↔ u = m) := by
  obtain ⟨hordered, hfinite⟩ := ordered_and_finite_of_decode h
  obtain ⟨t, hterm, hvalue⟩ := Value.exists_toTerm hordered hfinite
  obtain ⟨haccepted, hunique⟩ := Term.decodeArgument_object_of_settle position hvalue
  refine ⟨t, _, hterm, rfl, fun hrange => haccepted ?_, hunique, fun x hx => ⟨fun n hn => ?_, ?_⟩,
    Value.entriesMapFloats_returned_eq_self_iff, Value.ofMapping_returned_eq_iff hordered hfinite⟩
  · -- A number that is refused is one that some double denotes, between the two ranges.
    refine List.findSome?_eq_none_iff.mpr fun x hx => Option.eq_none_iff_forall_ne_some.mpr ?_
    intro n hn
    obtain ⟨hdenotes, hlow, hhigh⟩ := Binary64.unsigned?_eq_some_iff.mp hn
    have := hrange x hx n hdenotes
    omega
  · have hshortest : x.shortestValue = n.toInt := hn
    refine ⟨Binary64.returned_of_denotes hn, ?_⟩
    rw [← hshortest]
    exact Binary64.same_ofRat_shortestValue (hfinite x hx)
  · exact Binary64.returned_eq_float_iff.mpr

/-- A document with an integer of each width, a half and the double 2^62. -/
def account : Document :=
  [("logins", .int64 7), ("half", .double (.ofFields false 1022 0)), ("age", .int32 30),
    ("large", .double (.ofFields false 1085 0))]

/-- What is found in it. -/
def accountMapping : Mapping :=
  [("age", .int 30), ("half", .float (.ofFields false 1022 0)),
    ("large", .float (.ofFields false 1085 0)), ("logins", .int 7)]

theorem decodeArgument_of_decode_account : account.decode = .ok accountMapping ∧
    ∃ t, (Value.map accountMapping).toTerm = .ok t ∧
      t.decodeArgument .object 2 = .ok (.map [("age", .int 30),
        ("half", .float (.ofFields false 1022 0)), ("large", .int 4611686018427388000),
        ("logins", .int 7)]) := by
  have hdecode : account.decode = .ok accountMapping := rfl
  obtain ⟨t, u, hterm, rfl, haccepted, -⟩ := decodeArgument_of_decode hdecode 2
  have hhalf : (Binary64.ofFields false 1022 0).returned = .float (.ofFields false 1022 0) := by
    unfold Binary64.returned
    exact if_neg (by decide +kernel)
  have hlarge : (Binary64.ofFields false 1085 0).returned = .int 4611686018427388000 :=
    Binary64.returned_of_denotes (by unfold Binary64.Denotes; decide +kernel)
  refine ⟨hdecode, t, hterm, (haccepted ?_).trans ?_⟩
  · intro x hx n hn
    have hnone : ∀ x ∈ [Binary64.ofFields false 1022 0, .ofFields false 1085 0],
        x.unsigned? = none := by decide +kernel
    by_contra hrange
    have hsome := Binary64.unsigned?_eq_some_iff.mpr ⟨hn, by omega⟩
    rw [hnone x hx] at hsome
    cases hsome
  · simp only [accountMapping, Value.entriesMapFloats, Value.mapFloats, hhalf, hlarge]

/-- **Not every document is found again**: the double one comes back as an integer. -/
theorem integral_changes : ¬ ∀ (d : Document) (m : Mapping) (position : Nat), d.decode = .ok m →
    ∃ t, (Value.map m).toTerm = .ok t ∧ t.decodeArgument .object position = .ok (.map m) := by
  intro hall
  have hdecode : decode [("score", .double (.ofFields false 1023 0))]
      = .ok [("score", .float (.ofFields false 1023 0))] := rfl
  obtain ⟨hordered, hfinite⟩ := ordered_and_finite_of_decode hdecode
  obtain ⟨t, hterm, hback⟩ := hall _ _ 2 hdecode
  obtain ⟨t', hterm', hvalue⟩ := Value.exists_toTerm hordered hfinite
  obtain rfl : t = t' := Except.ok.inj (hterm.symm.trans hterm')
  have hself := (Term.decodeArgument_object_of_settle 2 hvalue).2 _ hback
  have hnone := Value.entriesMapFloats_returned_eq_self_iff.mp (Value.map.inj hself).symm
  exact hnone (.ofFields false 1023 0) (.head _) 1 (by unfold Binary64.Denotes; decide +kernel)

end Document

end PolicyLookup
