/-
  PolicyLookup.Proofs.Value.Equality — equality of native values, through look-ups.

  A mapping has its keys in order, so two of them are compared entry by entry.  That is the same as
  comparing their sizes and looking each key of the one up in the other.  A value whose doubles are
  finite equals itself.

    * `same_self` — what equals itself.
    * `sameEntries_iff` — mappings.
-/

import Mathlib.Data.List.Perm.Subperm
import PolicyLookup.Proofs.Number.Shortest
import PolicyLookup.Proofs.Value.Floats
import PolicyLookup.Value.Equality

namespace PolicyLookup

/-! ## §1. Lists of keys. -/

namespace Keyed

variable {α β : Type}

/-- Lists of keys that ascend are equal if one has all keys of the other, and no more. -/
theorem map_fst_eq_of_subset {xs : List (String × α)} {ys : List (String × β)}
    (hx : Ascending xs) (hy : Ascending ys) (hlength : xs.length = ys.length)
    (hsubset : ∀ k ∈ xs.map Prod.fst, k ∈ ys.map Prod.fst) :
    xs.map Prod.fst = ys.map Prod.fst := by
  have hsubperm := List.subperm_of_subset (nodup_of_ascending hx) hsubset
  have hperm : (xs.map Prod.fst).Perm (ys.map Prod.fst) := by
    apply hsubperm.perm_of_length_le
    simp [hlength]
  have hxs : (xs.map Prod.fst).Pairwise (· < ·) := List.pairwise_map.mpr hx
  have hys : (ys.map Prod.fst).Pairwise (· < ·) := List.pairwise_map.mpr hy
  refine List.Perm.eq_of_pairwise ?_ hxs hys hperm
  intro a b _ _ hab hba
  exact absurd (String.lt_trans hab hba) (String.lt_irrefl a)

theorem get?_cons_of_ne {e : String × α} {rest : List (String × α)} {k : String} (h : e.1 ≠ k) :
    get? (e :: rest) k = get? rest k := by
  obtain ⟨k', v⟩ := e
  rw [get?, if_neg h]

end Keyed

/-! ## §2. What equals itself. -/

theorem Binary64.same_self {x : Binary64} (h : x.isFinite = true) : x.same x = true := by
  unfold same
  rw [isNaN_of_isFinite h]
  simp

namespace Value

mutual

/-- **A value whose doubles are finite equals itself.** -/
theorem same_self : ∀ (v : Value), (∀ x ∈ v.floats, x.isFinite = true) → v.same v = true
  | .null, _ => rfl
  | .bool _, _ => decide_eq_true rfl
  | .int _, _ => decide_eq_true rfl
  | .float x, h => Binary64.same_self (h x (.head _))
  | .str _, _ => decide_eq_true rfl
  | .seq items, h => sameItems_self items h
  | .map entries, h => sameEntries_self entries h

theorem sameItems_self : ∀ (items : List Value), (∀ x ∈ itemsFloats items, x.isFinite = true) →
    sameItems items items = true
  | [], _ => rfl
  | v :: rest, h => by
    rw [sameItems, same_self v fun x hx => h x (List.mem_append_left _ hx),
      sameItems_self rest fun x hx => h x (List.mem_append_right _ hx)]
    rfl

theorem sameEntries_self : ∀ (entries : List (String × Value)),
    (∀ x ∈ entriesFloats entries, x.isFinite = true) → sameEntries entries entries = true
  | [], _ => rfl
  | (k, v) :: rest, h => by
    rw [sameEntries, same_self v fun x hx => h x (List.mem_append_left _ hx),
      sameEntries_self rest fun x hx => h x (List.mem_append_right _ hx), decide_eq_true rfl]
    rfl

end

/-! ## §3. Mappings. -/

/-- Mappings that are equal have the same keys. -/
theorem map_fst_of_sameEntries {xs ys : List (String × Value)} (h : sameEntries xs ys = true) :
    xs.map Prod.fst = ys.map Prod.fst := by
  induction xs generalizing ys with
  | nil =>
    cases ys with
    | nil => rfl
    | cons e ys => cases h
  | cons e xs ih =>
    cases ys with
    | nil => cases h
    | cons e' ys =>
      simp only [sameEntries, Bool.and_eq_true, decide_eq_true_eq] at h
      rw [List.map_cons, List.map_cons, ih h.2, h.1.1]

/-- Two mappings with the same keys are equal if what the one has under its keys equals what is
found in the other. -/
theorem sameEntries_iff_of_map_fst {xs ys : List (String × Value)}
    (hkeys : xs.map Prod.fst = ys.map Prod.fst) (hx : Keyed.Ascending xs) :
    sameEntries xs ys = true ↔
      ∀ e ∈ xs, ∃ w, Keyed.get? ys e.1 = some w ∧ e.2.same w = true := by
  induction xs generalizing ys with
  | nil =>
    obtain rfl := List.map_eq_nil_iff.mp hkeys.symm
    exact ⟨fun _ => nofun, fun _ => rfl⟩
  | cons e xs ih =>
    obtain ⟨k, v⟩ := e
    cases ys with
    | nil => cases hkeys
    | cons e' ys =>
      obtain ⟨k', w⟩ := e'
      obtain ⟨rfl, hrest⟩ : k = k' ∧ xs.map Prod.fst = ys.map Prod.fst := List.cons.inj hkeys
      obtain ⟨hfirst, hx⟩ := List.pairwise_cons.mp hx
      -- The keys behind the first one are larger, so they are found behind the first entry.
      have hbehind : ∀ e ∈ xs, Keyed.get? ((k, w) :: ys) e.1 = Keyed.get? ys e.1 := by
        intro e he
        apply Keyed.get?_cons_of_ne
        intro heq
        have hlt : k < e.1 := hfirst e he
        rw [← heq] at hlt
        exact String.lt_irrefl k hlt
      have hhead : Keyed.get? ((k, w) :: ys) k = some w := if_pos rfl
      simp only [sameEntries, Bool.and_eq_true, ih hrest hx, List.forall_mem_cons, hhead,
        decide_true, true_and, Option.some.injEq, exists_eq_left']
      refine and_congr_right fun _ => forall₂_congr fun e he => ?_
      rw [hbehind e he]

/-- **Equality of mappings through look-ups**: they have the same size, and what the one has under
its keys equals what is found in the other. -/
theorem sameEntries_iff {xs ys : List (String × Value)} (hx : Keyed.Ascending xs)
    (hy : Keyed.Ascending ys) : sameEntries xs ys = true ↔ xs.length = ys.length ∧
      ∀ e ∈ xs, ∃ w, Keyed.get? ys e.1 = some w ∧ e.2.same w = true := by
  constructor
  · intro h
    have hkeys := map_fst_of_sameEntries h
    refine ⟨?_, (sameEntries_iff_of_map_fst hkeys hx).mp h⟩
    rw [← List.length_map Prod.fst, hkeys, List.length_map]
  · rintro ⟨hlength, hfound⟩
    refine (sameEntries_iff_of_map_fst ?_ hx).mpr hfound
    refine Keyed.map_fst_eq_of_subset hx hy hlength fun k hk => ?_
    obtain ⟨e, he, rfl⟩ := List.mem_map.mp hk
    obtain ⟨w, hw, -⟩ := hfound e he
    have hmem := (Keyed.get?_eq_some_iff (Keyed.nodup_of_ascending hy)).mp hw
    exact List.mem_map.mpr ⟨_, hmem, rfl⟩

end Value

end PolicyLookup
