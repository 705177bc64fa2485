/-
  PolicyLookup.Proofs.Evaluation.EqualArguments — equal arguments and their keys.

  Equality of native values compares doubles as numbers, while the text of a value shows their bits.
  The two part at the zeros and nowhere else: values that are equal have as many zeros, and are the
  same value if the signs of these agree (`signs_of_same`).  So equal arguments have equal keys as
  long as no zero among them has changed its sign, and different keys otherwise.

    * `ofCall_eq_iff_zeroSigns` — when equal arguments have equal keys.
    * `keys_of_zeros_ne` — the two zeros, which are equal, as arguments of a call.
-/

import PolicyLookup.Proofs.Evaluation.Arguments
import PolicyLookup.Value.Equality

namespace PolicyLookup

/-! ## §1. What equality forgets. -/

namespace Binary64

/-- The sign of a zero. -/
def zeroSign? (x : Binary64) : Option Bool := if x.isZero then some x.negative else none

theorem eq_of_isZero {x y : Binary64} (hx : x.isZero = true) (hy : y.isZero = true)
    (hsign : x.negative = y.negative) : x = y := by
  unfold isZero at hx hy
  simp only [Bool.and_eq_true, beq_iff_eq] at hx hy
  obtain ⟨xs, xe, xf⟩ := x
  obtain ⟨ys, ye, yf⟩ := y
  simp only at hx hy hsign
  rw [mk.injEq]
  exact ⟨hsign, Fin.ext (hx.1.trans hy.1.symm), Fin.ext (hx.2.trans hy.2.symm)⟩

/-- Doubles that are equal as numbers are the same one, or two zeros. -/
theorem eq_or_isZero_of_same {x y : Binary64} (h : x.same y = true) :
    x = y ∨ x.isZero = true ∧ y.isZero = true := by
  unfold same at h
  simp only [Bool.and_eq_true, Bool.or_eq_true, decide_eq_true_eq] at h
  exact h.2

/-- A zero equals zeros only. -/
theorem isSome_zeroSign?_of_same {x y : Binary64} (h : x.same y = true) :
    x.zeroSign?.isSome = y.zeroSign?.isSome := by
  rcases eq_or_isZero_of_same h with rfl | ⟨hx, hy⟩
  · rfl
  · unfold zeroSign?
    rw [if_pos hx, if_pos hy]
    rfl

theorem eq_of_same {x y : Binary64} (h : x.same y = true) (hsign : x.zeroSign? = y.zeroSign?) :
    x = y := by
  rcases eq_or_isZero_of_same h with rfl | ⟨hx, hy⟩
  · rfl
  · unfold zeroSign? at hsign
    rw [if_pos hx, if_pos hy] at hsign
    exact eq_of_isZero hx hy (Option.some.inj hsign)

end Binary64

namespace Value

/-- The signs of the zeros among some doubles, in their order. -/
def signs (xs : List Binary64) : List Bool := xs.filterMap Binary64.zeroSign?

theorem signs_append (xs ys : List Binary64) : signs (xs ++ ys) = signs xs ++ signs ys :=
  List.filterMap_append

/-- Where the front parts have as many zeros, the signs agree part by part. -/
theorem signs_append_eq_iff {xs xs' ys ys' : List Binary64}
    (h : (signs xs).length = (signs xs').length) :
    signs (xs ++ ys) = signs (xs' ++ ys') ↔ signs xs = signs xs' ∧ signs ys = signs ys' := by
  rw [signs_append, signs_append]
  constructor
  · intro heq
    exact List.append_inj heq h
  · rintro ⟨hxs, hys⟩
    rw [hxs, hys]

theorem length_signs_append {xs xs' ys ys' : List Binary64}
    (hxs : (signs xs).length = (signs xs').length) (hys : (signs ys).length = (signs ys').length) :
    (signs (xs ++ ys)).length = (signs (xs' ++ ys')).length := by
  rw [signs_append, signs_append, List.length_append, List.length_append, hxs, hys]

theorem signs_singleton (x : Binary64) : signs [x] = x.zeroSign?.toList := by
  unfold signs
  cases h : x.zeroSign? <;> simp [h]

/-- Doubles that are equal as numbers are both zeros or none of them is. -/
theorem signs_of_same_float {x y : Binary64} (h : x.same y = true) :
    (signs [x]).length = (signs [y]).length ∧ (signs [x] = signs [y] → x = y) := by
  have hsome := Binary64.isSome_zeroSign?_of_same h
  rw [signs_singleton, signs_singleton]
  constructor
  · rw [Option.length_toList, Option.length_toList, hsome]
  · intro hsigns
    have hsign := congrArg List.head? hsigns
    rw [Option.head?_toList, Option.head?_toList] at hsign
    exact Binary64.eq_of_same h hsign

mutual

/-- **Values that are equal are the same but for the signs of zeros**: they have as many zeros, and
if the signs of these agree in reading order nothing is different. -/
theorem signs_of_same : ∀ (v w : Value), v.same w = true →
    (signs v.floats).length = (signs w.floats).length ∧
      (signs v.floats = signs w.floats → v = w)
  | .null, w, h => by
    cases w with
    | null => exact ⟨rfl, fun _ => rfl⟩
    | _ => cases h
  | .bool a, w, h => by
    cases w with
    | bool b => exact ⟨rfl, fun _ => congrArg _ (of_decide_eq_true h)⟩
    | _ => cases h
  | .int m, w, h => by
    cases w with
    | int n => exact ⟨rfl, fun _ => congrArg _ (of_decide_eq_true h)⟩
    | _ => cases h
  | .float x, w, h => by
    cases w with
    | float y =>
      obtain ⟨hlength, heq⟩ := signs_of_same_float h
      exact ⟨hlength, fun hsigns => congrArg _ (heq hsigns)⟩
    | _ => cases h
  | .str s, w, h => by
    cases w with
    | str t => exact ⟨rfl, fun _ => congrArg _ (of_decide_eq_true h)⟩
    | _ => cases h
  | .seq xs, w, h => by
    cases w with
    | seq ys =>
      obtain ⟨hlength, heq⟩ := signs_of_sameItems xs ys h
      exact ⟨hlength, fun hsigns => congrArg _ (heq hsigns)⟩
    | _ => cases h
  | .map xs, w, h => by
    cases w with
    | map ys =>
      obtain ⟨hlength, heq⟩ := signs_of_sameEntries xs ys h
      exact ⟨hlength, fun hsigns => congrArg _ (heq hsigns)⟩
    | _ => cases h

theorem signs_of_sameItems : ∀ (xs ys : List Value), sameItems xs ys = true →
    (signs (itemsFloats xs)).length = (signs (itemsFloats ys)).length ∧
      (signs (itemsFloats xs) = signs (itemsFloats ys) → xs = ys)
  | [], [], _ => ⟨rfl, fun _ => rfl⟩
  | v :: xs, w :: ys, h => by
    rw [sameItems, Bool.and_eq_true] at h
    obtain ⟨hlength, heq⟩ := signs_of_same v w h.1
    obtain ⟨hlengthRest, heqRest⟩ := signs_of_sameItems xs ys h.2
    rw [itemsFloats, itemsFloats, signs_append_eq_iff hlength]
    refine ⟨length_signs_append hlength hlengthRest, ?_⟩
    rintro ⟨hsigns, hsignsRest⟩
    rw [heq hsigns, heqRest hsignsRest]

theorem signs_of_sameEntries : ∀ (xs ys : List (String × Value)), sameEntries xs ys = true →
    (signs (entriesFloats xs)).length = (signs (entriesFloats ys)).length ∧
      (signs (entriesFloats xs) = signs (entriesFloats ys) → xs = ys)
  | [], [], _ => ⟨rfl, fun _ => rfl⟩
  | (k, v) :: xs, (l, w) :: ys, h => by
    rw [sameEntries, Bool.and_eq_true, Bool.and_eq_true, decide_eq_true_eq] at h
    obtain ⟨⟨hkey, hvalue⟩, hrest⟩ := h
    obtain ⟨hlength, heq⟩ := signs_of_same v w hvalue
    obtain ⟨hlengthRest, heqRest⟩ := signs_of_sameEntries xs ys hrest
    rw [entriesFloats, entriesFloats, signs_append_eq_iff hlength]
    refine ⟨length_signs_append hlength hlengthRest, ?_⟩
    rintro ⟨hsigns, hsignsRest⟩
    rw [hkey, heq hsigns, heqRest hsignsRest]

end

end Value

/-! ## §2. Keys of equal arguments. -/

namespace CallKey

open Value

/-- **Equal arguments have equal keys exactly if no zero among them has changed its sign**, at any
depth of sequences and mappings.  Keys are equal then for any digest; that they differ otherwise
takes one that tells the two messages apart. -/
theorem ofCall_eq_iff_zeroSigns {digest : List UInt8 → String} {f : String} {a b : List Value}
    {k l : String} (hsame : sameItems a b = true) (ha : ofCall digest f a = .ok k)
    (hb : ofCall digest f b = .ok l) :
    (signs (itemsFloats a) = signs (itemsFloats b) → k = l) ∧
    (TellsApart digest f a f b → k = l → signs (itemsFloats a) = signs (itemsFloats b)) := by
  obtain ⟨-, heq⟩ := signs_of_sameItems a b hsame
  obtain ⟨m, hm, rfl⟩ := exists_of_map_eq_ok ha
  obtain ⟨n, hn, rfl⟩ := exists_of_map_eq_ok hb
  constructor
  · intro hsigns
    rw [heq hsigns, hn] at hm
    rw [Except.ok.inj hm]
  · intro hdigest hkey
    have hmessage : m = n := hdigest m n hm hn hkey
    obtain ⟨-, hargs⟩ := message_injective hm (hmessage ▸ hn)
    rw [hargs]

/-- The double zero with a minus sign. -/
def minusZero : Binary64 := .ofFields true 0 0

variable {digest : List UInt8 → String} {f : String} {a b : List Value}

theorem exists_keys_ne (ha : ∀ v ∈ a, ∀ x ∈ v.floats, x.isFinite = true)
    (hb : ∀ v ∈ b, ∀ x ∈ v.floats, x.isFinite = true)
    (hne : (ofCall digest f a).toOption ≠ (ofCall digest f b).toOption) :
    ∃ k l, ofCall digest f a = .ok k ∧ ofCall digest f b = .ok l ∧ k ≠ l := by
  obtain ⟨k, hk⟩ := exists_ofCall digest f ha
  obtain ⟨l, hl⟩ := exists_ofCall digest f hb
  refine ⟨k, l, hk, hl, ?_⟩
  intro hkey
  rw [hk, hl, hkey] at hne
  exact hne rfl

/-- A zero that has changed its sign in a mapping in a sequence, and one that has not. -/
theorem ofCall_eq_iff_zeroSigns_nested :
    let a : List Value := [.seq [.int 0, .map [("x", .float .zero)]], .float minusZero]
    let b : List Value := [.seq [.int 0, .map [("x", .float minusZero)]], .float minusZero]
    sameItems a b = true ∧ ∃ k l, ofCall Digest.Blake3.hex "f" a = .ok k ∧
      ofCall Digest.Blake3.hex "f" b = .ok l ∧ k ≠ l := by
  intro a b
  have hsame : sameItems a b = true := by decide
  have hne : (ofCall Digest.Blake3.hex "f" a).toOption
      ≠ (ofCall Digest.Blake3.hex "f" b).toOption := by decide +kernel
  obtain ⟨k, l, hk, hl, -⟩ := exists_keys_ne (by decide) (by decide) hne
  obtain ⟨-, hsigns⟩ := ofCall_eq_iff_zeroSigns hsame hk hl
  refine ⟨hsame, k, l, hk, hl, ?_⟩
  intro hkey
  exact absurd (hsigns (tellsApart_of_ne hne) hkey) (by decide)

/-- **Equal arguments need not have equal keys**: the two zeros are equal. -/
theorem keys_of_zeros_ne : sameItems [.float .zero] [.float minusZero] = true ∧
    ∃ k l, ofCall Digest.Blake3.hex "f" [.float .zero] = .ok k ∧
      ofCall Digest.Blake3.hex "f" [.float minusZero] = .ok l ∧ k ≠ l :=
  ⟨by decide, exists_keys_ne (by decide) (by decide) (by decide +kernel)⟩

end CallKey

end PolicyLookup
