/-
  PolicyLookup.Proofs.Term.RoundTrip — native values on their way to a policy and back.

  A value goes to the policy as a document, and a double of a document as the number that its
  shortest text denotes.  A term does not tell integers from doubles, so what comes back for a
  double is decided by that number alone: an integer of the signed range comes back as an integer,
  one above it that fits 64 unsigned bits is refused, and from every other number the double is
  found again.  Nothing else in a value changes.

    * `objectOf_of_ascending` — a mapping has its pairs in term order already.
    * `numberToValue_shortestValue` — what comes back for one double.
    * `toValue_ofJson` — what comes back for a value, at every depth.
    * `decode_toTerm` — the whole trip, and the trip after it.
-/

import Mathlib.Data.Rat.Defs
import PolicyLookup.Proofs.Number.Shortest
import PolicyLookup.Proofs.Term.Numbers
import PolicyLookup.Proofs.Value.Encoding
import PolicyLookup.Proofs.Value.Places

namespace PolicyLookup

namespace Term

/-! ## §1. Objects from mappings. -/

theorem cmp_str_of_lt {s t : String} (h : s < t) : cmp (.str t) (.str s) = .gt := by
  rw [cmp, cmpString, if_neg (String.lt_asymm h), if_pos h]

/-- A key above all others comes last. -/
theorem insertPair_of_gt {k v : Term} {pairs : List (Term × Term)}
    (h : ∀ p ∈ pairs, cmp k p.1 = .gt) : insertPair k v pairs = pairs ++ [(k, v)] := by
  induction pairs with
  | nil => rfl
  | cons p rest ih =>
    obtain ⟨l, w⟩ := p
    have hk : cmp k l = .gt := h (l, w) (.head _)
    simp only [insertPair, hk]
    rw [ih fun p hp => h p (.tail _ hp)]
    rfl

theorem foldl_insertPair (object : List (Term × Term)) {pairs : List (Term × Term)}
    (h : (object ++ pairs).Pairwise fun p q => cmp q.1 p.1 = .gt) :
    pairs.foldl (fun o p => insertPair p.1 p.2 o) object = object ++ pairs := by
  induction pairs generalizing object with
  | nil => rw [List.foldl_nil, List.append_nil]
  | cons p rest ih =>
    have hlast : ∀ q ∈ object, cmp p.1 q.1 = .gt := fun q hq =>
      (List.pairwise_append.mp h).2.2 q hq p (.head _)
    have hassoc : object ++ p :: rest = object ++ [p] ++ rest := by
      rw [List.append_assoc, List.singleton_append]
    rw [hassoc] at h ⊢
    rw [List.foldl_cons, insertPair_of_gt hlast]
    exact ih _ h

/-- The pairs of members whose names ascend are in term order. -/
theorem pairwise_ofJsonMembers {members : List (String × Json)}
    (h : Keyed.Ascending members) :
    (ofJsonMembers members).Pairwise fun p q => cmp q.1 p.1 = .gt := by
  induction members with
  | nil => exact .nil
  | cons m rest ih =>
    obtain ⟨k, j⟩ := m
    obtain ⟨hfirst, hrest⟩ := List.pairwise_cons.mp h
    refine .cons ?_ (ih hrest)
    intro p hp
    -- Each pair of the rest has the name of a member of the rest for its key.
    have hkey : ∀ {ms : List (String × Json)}, p ∈ ofJsonMembers ms →
        ∃ m ∈ ms, p.1 = .str m.1 := by
      intro ms
      induction ms with
      | nil => exact nofun
      | cons m ms ih =>
        intro hp
        rcases List.mem_cons.mp hp with rfl | hp
        · exact ⟨m, .head _, rfl⟩
        · obtain ⟨m', hm', h'⟩ := ih hp
          exact ⟨m', .tail _ hm', h'⟩
    obtain ⟨m, hm, hp⟩ := hkey hp
    rw [hp]
    exact cmp_str_of_lt (hfirst m hm)

/-- **A mapping has its pairs in term order already.** -/
theorem objectOf_of_ascending {members : List (String × Json)} (h : Keyed.Ascending members) :
    objectOf (ofJsonMembers members) = .obj (ofJsonMembers members) := by
  unfold objectOf
  rw [foldl_insertPair [] (pairwise_ofJsonMembers h)]
  rfl

end Term

/-! ## §2. One double. -/

namespace Binary64

/-- The shortest text of a double denotes the given integer. -/
def Denotes (x : Binary64) (n : Int) : Prop := x.shortestValue = n

/-- The integer above the signed range, but within 64 unsigned bits, that the shortest text of a
double denotes. -/
def unsigned? (x : Binary64) : Option Int :=
  if x.shortestValue.den = 1 ∧ 9223372036854775808 ≤ x.shortestValue.num ∧
      x.shortestValue.num < 18446744073709551616 then
    some x.shortestValue.num
  else none

/-- What comes back for a double, if anything does: an integer of the signed range if its shortest
text denotes one, else the double. -/
def returned (x : Binary64) : Value :=
  if x.shortestValue.den = 1 ∧ -9223372036854775808 ≤ x.shortestValue.num ∧
      x.shortestValue.num ≤ 9223372036854775807 then
    .int (Int64.ofInt x.shortestValue.num)
  else .float x

variable {x : Binary64} {n : Int}

theorem denotes_iff : x.Denotes n ↔ x.shortestValue.den = 1 ∧ x.shortestValue.num = n := by
  unfold Denotes
  constructor
  · intro h
    rw [h]
    exact ⟨Rat.den_intCast n, Rat.num_intCast n⟩
  · rintro ⟨hden, hnum⟩
    rw [← (Rat.den_eq_one_iff _).mp hden, hnum]

theorem unsigned?_eq_some_iff :
    x.unsigned? = some n ↔ x.Denotes n ∧ 9223372036854775808 ≤ n ∧ n < 18446744073709551616 := by
  rw [denotes_iff]
  unfold unsigned?
  constructor
  · intro h
    split at h
    · next hq =>
      obtain rfl : x.shortestValue.num = n := Option.some.inj h
      exact ⟨⟨hq.1, rfl⟩, hq.2⟩
    · cases h
  · rintro ⟨⟨hden, rfl⟩, hrange⟩
    exact if_pos ⟨hden, hrange⟩

theorem returned_of_denotes {n : Int64} (h : x.Denotes n.toInt) : x.returned = .int n := by
  obtain ⟨hden, hnum⟩ := denotes_iff.mp h
  have hlow := Int64.le_toInt n
  have hhigh := Int64.toInt_lt n
  unfold returned
  simp only [hnum]
  rw [if_pos ⟨hden, by omega, by omega⟩, Int64.ofInt_toInt]

/-- What comes back is either an integer that the shortest text denotes, or the double. -/
theorem returned_cases (x : Binary64) :
    (∃ n : Int64, x.Denotes n.toInt ∧ x.returned = .int n) ∨
      (∀ n : Int64, ¬ x.Denotes n.toInt) ∧ x.returned = .float x := by
  by_cases hword : ∃ n : Int64, x.Denotes n.toInt
  · obtain ⟨n, hn⟩ := hword
    exact Or.inl ⟨n, hn, returned_of_denotes hn⟩
  · right
    have hnone : ∀ n : Int64, ¬ x.Denotes n.toInt := fun n hn => hword ⟨n, hn⟩
    refine ⟨hnone, ?_⟩
    unfold returned
    refine if_neg ?_
    rintro ⟨hden, hlow, hhigh⟩
    -- The integer would be one of 64 signed bits.
    refine hnone (Int64.ofInt x.shortestValue.num) (denotes_iff.mpr ⟨hden, ?_⟩)
    rw [Int64.toInt_ofInt_of_le (by omega) (by omega)]

theorem ordered_returned (x : Binary64) : x.returned.Ordered := by
  rcases returned_cases x with ⟨n, -, h⟩ | ⟨-, h⟩
  · rw [h]
    trivial
  · rw [h]
    trivial

/-- A double that comes back as a double comes back as itself, and would do so again. -/
theorem returned_of_mem {y : Binary64} (h : y ∈ x.returned.floats) :
    y = x ∧ y.returned = .float y := by
  rcases returned_cases x with ⟨n, -, hx⟩ | ⟨-, hx⟩
  · rw [hx] at h
    cases h
  · rw [hx] at h
    obtain rfl := List.mem_singleton.mp h
    exact ⟨rfl, hx⟩

end Binary64

namespace Term

/-- What is reported of a value that has an integer out of range, or else the value. -/
def settle {α : Type} (refused : Option Int) (a : α) : Except Defect α :=
  match refused with
  | some n => .error (.outOfRange n)
  | none => .ok a

/-- **What comes back for one double.** -/
theorem numberToValue_shortestValue {x : Binary64} (hx : x.isFinite = true) :
    numberToValue x.shortestValue = settle x.unsigned? x.returned := by
  obtain ⟨q, hq⟩ : ∃ q, q = x.shortestValue := ⟨_, rfl⟩
  unfold numberToValue Binary64.unsigned? Binary64.returned
  simp only [← hq]
  by_cases hword : isWord q = true
  · rw [if_pos hword]
    unfold isWord at hword
    simp only [Bool.and_eq_true, beq_iff_eq, decide_eq_true_eq] at hword
    obtain ⟨⟨hden, hlow⟩, hhigh⟩ := hword
    unfold int64?
    by_cases hsigned : q.num ≤ 9223372036854775807
    · rw [if_pos ⟨hlow, hsigned⟩, if_neg (by omega), if_pos ⟨hden, hlow, hsigned⟩]
      rfl
    · rw [if_neg (by omega), if_pos ⟨hden, by omega, hhigh⟩]
      rfl
  · rw [if_neg hword]
    unfold isWord at hword
    simp only [Bool.and_eq_true, beq_iff_eq, decide_eq_true_eq] at hword
    -- Zero is an integer, so the double is not zero and is found again.
    have hzero : x.isZero = false := by
      by_contra hzero
      rw [Bool.not_eq_false] at hzero
      rw [hq, Binary64.shortestValue_of_isZero hzero] at hword
      exact hword (by decide)
    rw [if_neg (by omega), if_neg (by omega), hq, Binary64.ofRat?_shortestValue hx hzero]
    rfl

/-! ## §3. Values. -/

/-- The names of the members are the keys of the mapping. -/
theorem map_fst_of_entriesToJson {entries : List (String × Value)}
    {members : List (String × Json)} (h : Value.entriesToJson entries = .ok members) :
    members.map Prod.fst = entries.map Prod.fst := by
  induction entries generalizing members with
  | nil =>
    cases h
    rfl
  | cons e rest ih =>
    obtain ⟨k, v⟩ := e
    obtain ⟨j, members', rfl, -, hrest⟩ := Value.entriesToJson_cons_eq_ok h
    rw [List.map_cons, List.map_cons, ih hrest]

theorem ascending_of_entriesToJson {entries : List (String × Value)}
    {members : List (String × Json)} (h : Value.entriesToJson entries = .ok members)
    (hascending : Keyed.Ascending entries) : Keyed.Ascending members :=
  Keyed.ascending_of_map_fst_eq (map_fst_of_entriesToJson h) hascending

theorem toValues_cons (t : Term) (rest : List Term) :
    toValues (t :: rest) = (toValue t).bind fun v => (toValues rest).map (v :: ·) := by
  rw [toValues]
  cases toValue t <;> rfl

theorem toEntries_cons_str (k : String) (t : Term) (rest : List (Term × Term)) :
    toEntries ((.str k, t) :: rest)
      = (toValue t).bind fun v => (toEntries rest).map ((k, v) :: ·) := by
  rw [toEntries]
  cases toValue t <;> rfl

/-- Of two parts in a row the first that has an integer out of range is reported. -/
theorem settle_append {α β γ : Type} (xs ys : List Binary64) (a : α) (b : β) (f : α → β → γ) :
    ((settle (xs.findSome? Binary64.unsigned?) a).bind fun a =>
        (settle (ys.findSome? Binary64.unsigned?) b).map (f a))
      = settle ((xs ++ ys).findSome? Binary64.unsigned?) (f a b) := by
  rw [List.findSome?_append]
  cases xs.findSome? Binary64.unsigned? with
  | some n => rfl
  | none => cases ys.findSome? Binary64.unsigned? <;> rfl

mutual

/-- **What comes back for a value**: the first of its doubles that is refused is reported, else
each of them is replaced by what comes back for it. -/
theorem toValue_ofJson : ∀ (v : Value) {j : Json}, v.Ordered → v.toJson = .ok j →
    (ofJson j).toValue = settle (v.floats.findSome? Binary64.unsigned?)
      (v.mapFloats Binary64.returned)
  | .null, _, _, h => by cases h; rfl
  | .bool _, _, _, h => by cases h; rfl
  | .int n, _, _, h => by
    cases h
    exact numberToValue_int64 n
  | .float x, _, _, h => by
    obtain ⟨rfl, hx⟩ := Value.toJson_float_eq_ok h
    rw [ofJson, toValue, numberToValue_shortestValue hx, Value.floats, List.findSome?_singleton,
      Value.mapFloats]
  | .str _, _, _, h => by cases h; rfl
  | .seq items, _, hordered, h => by
    obtain ⟨js, rfl, hitems⟩ := Value.toJson_seq_eq_ok h
    rw [ofJson, toValue, toValues_ofJsonItems items hordered hitems, Value.floats,
      Value.mapFloats]
    cases (Value.itemsFloats items).findSome? Binary64.unsigned? <;> rfl
  | .map entries, _, hordered, h => by
    obtain ⟨members, rfl, hentries⟩ := Value.toJson_map_eq_ok h
    have hmembers := ascending_of_entriesToJson hentries hordered.1
    rw [ofJson, objectOf_of_ascending hmembers, toValue,
      toEntries_ofJsonMembers entries hordered.2 hentries, Value.floats, Value.mapFloats]
    cases (Value.entriesFloats entries).findSome? Binary64.unsigned? with
    | some n => rfl
    | none =>
      show Except.ok (Value.map (Keyed.ofList _)) = Except.ok (Value.map _)
      rw [Keyed.ofList_of_ascending (Value.ascending_entriesMapFloats hordered.1)]

theorem toValues_ofJsonItems : ∀ (items : List Value) {i : Nat} {js : List Json},
    Value.AllOrdered items → Value.itemsToJson i items = .ok js →
      toValues (ofJsonItems js) = settle ((Value.itemsFloats items).findSome? Binary64.unsigned?)
        (Value.itemsMapFloats Binary64.returned items)
  | [], _, _, _, h => by cases h; rfl
  | v :: rest, _, _, hordered, h => by
    obtain ⟨j, js, rfl, hv, hrest⟩ := Value.itemsToJson_cons_eq_ok h
    rw [ofJsonItems, toValues_cons, toValue_ofJson v hordered.1 hv,
      toValues_ofJsonItems rest hordered.2 hrest]
    exact settle_append v.floats _ _ _ fun u us => u :: us

theorem toEntries_ofJsonMembers : ∀ (entries : List (String × Value))
    {members : List (String × Json)}, Value.EntriesOrdered entries →
      Value.entriesToJson entries = .ok members →
        toEntries (ofJsonMembers members)
          = settle ((Value.entriesFloats entries).findSome? Binary64.unsigned?)
            (Value.entriesMapFloats Binary64.returned entries)
  | [], _, _, h => by cases h; rfl
  | (k, v) :: rest, _, hordered, h => by
    obtain ⟨j, members, rfl, hv, hrest⟩ := Value.entriesToJson_cons_eq_ok h
    rw [ofJsonMembers, toEntries_cons_str, toValue_ofJson v hordered.1 hv,
      toEntries_ofJsonMembers rest hordered.2 hrest]
    exact settle_append v.floats _ _ _ fun u us => (k, u) :: us

end

end Term

/-! ## §4. The trip, and the trip after it. -/

namespace Value

variable {v : Value}

/-- The term of a value whose doubles are finite, and what comes back for it. -/
theorem exists_toTerm (hordered : v.Ordered) (hfinite : ∀ x ∈ v.floats, x.isFinite = true) :
    ∃ t, v.toTerm = .ok t ∧ t.toValue = Term.settle (v.floats.findSome? Binary64.unsigned?)
      (v.mapFloats Binary64.returned) := by
  obtain ⟨j, hj⟩ := exists_toJson hfinite
  refine ⟨.ofJson j, ?_, Term.toValue_ofJson v hordered hj⟩
  rw [toTerm, encodeJson, hj]
  rfl

/-- What came back once comes back a second time. -/
theorem decode_toTerm_returned (hordered : v.Ordered)
    (hfinite : ∀ x ∈ v.floats, x.isFinite = true)
    (hnone : v.floats.findSome? Binary64.unsigned? = none) :
    ∃ t, (v.mapFloats Binary64.returned).toTerm = .ok t ∧
      t.decode = .ok (v.mapFloats Binary64.returned) := by
  -- The doubles that are left are doubles of `v` that come back as doubles.
  have hleft : ∀ y ∈ (v.mapFloats Binary64.returned).floats,
      y ∈ v.floats ∧ y.returned = .float y := by
    intro y hy
    obtain ⟨x, hx, hyx⟩ := mem_floats_mapFloats v hy
    obtain ⟨rfl, hreturned⟩ := Binary64.returned_of_mem hyx
    exact ⟨hx, hreturned⟩
  have hnone' : (v.mapFloats Binary64.returned).floats.findSome? Binary64.unsigned? = none := by
    rw [List.findSome?_eq_none_iff] at hnone ⊢
    exact fun y hy => hnone y (hleft y hy).1
  obtain ⟨t, hterm, hvalue⟩ := exists_toTerm
    (ordered_mapFloats Binary64.ordered_returned v hordered) fun y hy => hfinite y (hleft y hy).1
  rw [hnone', mapFloats_eq_self _ fun y hy => (hleft y hy).2] at hvalue
  exact ⟨t, hterm, by rw [Term.decode, hvalue]; rfl⟩

/-- **A value whose doubles are finite has a term, and this is what comes back for it.**  The term
is refused if and only if the shortest text of one of the doubles denotes an integer above the
signed range that fits 64 unsigned bits, and such an integer is what the error tells.  Otherwise
each double whose text denotes an integer of the signed range comes back as that integer, which
is rounded to an equal double, the other doubles come back bit for bit, and nothing else has
changed.  What has come back once comes back unchanged. -/
theorem decode_toTerm (hordered : v.Ordered) (hfinite : ∀ x ∈ v.floats, x.isFinite = true) :
    ∃ t, v.toTerm = .ok t ∧
      ((∃ e, t.decode = .error e) ↔ ∃ x ∈ v.floats, ∃ n : Int, x.Denotes n ∧
        9223372036854775808 ≤ n ∧ n < 18446744073709551616) ∧
      (∀ e, t.decode = .error e → ∃ x ∈ v.floats, ∃ n : Int, x.Denotes n ∧
        9223372036854775808 ≤ n ∧ n < 18446744073709551616 ∧
        e = .type s!"integer {n} is out of the 64-bit signed range" none) ∧
      (∀ u, t.decode = .ok u → u = v.mapFloats Binary64.returned ∧
        ∃ t', u.toTerm = .ok t' ∧ t'.decode = .ok u) ∧
      ∀ x ∈ v.floats,
        (∀ n : Int64, x.Denotes n.toInt →
          x.returned = .int n ∧ (Binary64.ofRat n.toInt).same x = true) ∧
        ((∀ n : Int64, ¬ x.Denotes n.toInt) → x.returned = .float x) := by
  obtain ⟨t, hterm, hvalue⟩ := exists_toTerm hordered hfinite
  have hfloats : ∀ x ∈ v.floats,
      (∀ n : Int64, x.Denotes n.toInt →
        x.returned = .int n ∧ (Binary64.ofRat n.toInt).same x = true) ∧
      ((∀ n : Int64, ¬ x.Denotes n.toInt) → x.returned = .float x) := by
    intro x hx
    refine ⟨fun n hn => ⟨Binary64.returned_of_denotes hn, ?_⟩, fun hnone => ?_⟩
    · have hshortest : x.shortestValue = n.toInt := hn
      rw [← hshortest]
      exact Binary64.same_ofRat_shortestValue (hfinite x hx)
    · rcases Binary64.returned_cases x with ⟨n, hn, -⟩ | ⟨-, h⟩
      · exact absurd hn (hnone n)
      · exact h
  refine ⟨t, hterm, ?_⟩
  cases hrefused : v.floats.findSome? Binary64.unsigned? with
  | some n =>
    have hdecode : t.decode
        = .error (.type s!"integer {n} is out of the 64-bit signed range" none) := by
      rw [Term.decode, hvalue, hrefused, ← Term.message_outOfRange]
      rfl
    obtain ⟨x, hx, hn⟩ := List.exists_of_findSome?_eq_some hrefused
    obtain ⟨hdenotes, hlow, hhigh⟩ := Binary64.unsigned?_eq_some_iff.mp hn
    refine ⟨⟨fun _ => ⟨x, hx, n, hdenotes, hlow, hhigh⟩, fun _ => ⟨_, hdecode⟩⟩, ?_, ?_, hfloats⟩
    · intro e he
      rw [hdecode] at he
      exact ⟨x, hx, n, hdenotes, hlow, hhigh, (Except.error.inj he).symm⟩
    · intro u hu
      rw [hdecode] at hu
      cases hu
  | none =>
    have hdecode : t.decode = .ok (v.mapFloats Binary64.returned) := by
      rw [Term.decode, hvalue, hrefused]
      rfl
    have hsettled : ∀ e, t.decode ≠ .error e := fun e he => by
      rw [hdecode] at he
      cases he
    refine ⟨⟨fun ⟨e, he⟩ => absurd he (hsettled e), ?_⟩, fun e he => absurd he (hsettled e), ?_,
      hfloats⟩
    · rintro ⟨x, hx, n, hn⟩
      have hnone := List.findSome?_eq_none_iff.mp hrefused x hx
      rw [Binary64.unsigned?_eq_some_iff.mpr hn] at hnone
      cases hnone
    · intro u hu
      obtain rfl : v.mapFloats Binary64.returned = u := Except.ok.inj (hdecode.symm.trans hu)
      exact ⟨rfl, decode_toTerm_returned hordered hfinite hrefused⟩

/-- A mapping with the double 2^62, a half and the negative zero. -/
def mixed : Value :=
  .map [("large", .float (.ofFields false 1085 0)),
    ("small", .seq [.float (.ofFields false 1022 0), .float (.ofFields true 0 0)])]

/-- The shortest text of 2^62 denotes another integer than 2^62. -/
theorem mapFloats_mixed : mixed.mapFloats Binary64.returned =
    .map [("large", .int 4611686018427388000),
      ("small", .seq [.float (.ofFields false 1022 0), .int 0])] := by
  have hlarge : (Binary64.ofFields false 1085 0).returned = .int 4611686018427388000 :=
    Binary64.returned_of_denotes (by unfold Binary64.Denotes; decide +kernel)
  have hhalf : (Binary64.ofFields false 1022 0).returned = .float (.ofFields false 1022 0) := by
    unfold Binary64.returned
    exact if_neg (by decide +kernel)
  have hzero : (Binary64.ofFields true 0 0).returned = .int 0 :=
    Binary64.returned_of_denotes (by unfold Binary64.Denotes; decide +kernel)
  simp only [mixed, mapFloats, entriesMapFloats, itemsMapFloats, hlarge, hhalf, hzero]

theorem decode_toTerm_mixed : ∃ t, mixed.toTerm = .ok t ∧
    t.decode = .ok (.map [("large", .int 4611686018427388000),
      ("small", .seq [.float (.ofFields false 1022 0), .int 0])]) := by
  have hordered : mixed.Ordered :=
    ⟨by unfold Keyed.Ascending; decide, trivial, ⟨trivial, trivial, trivial⟩, trivial⟩
  obtain ⟨t, hterm, hrefused, -, hback, -⟩ := decode_toTerm hordered (by decide)
  refine ⟨t, hterm, ?_⟩
  cases hdecode : t.decode with
  | ok u => rw [(hback u hdecode).1, mapFloats_mixed]
  | error e =>
    obtain ⟨x, hx, n, hn⟩ := hrefused.mp ⟨e, hdecode⟩
    have hnone : ∀ x ∈ mixed.floats, x.unsigned? = none := by decide +kernel
    have hsome := Binary64.unsigned?_eq_some_iff.mpr hn
    rw [hnone x hx] at hsome
    cases hsome

end Value

end PolicyLookup
