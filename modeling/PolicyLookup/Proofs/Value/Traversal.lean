/-
  PolicyLookup.Proofs.Value.Traversal — conversions that go through a value part by part.

  A list of parts is converted in its order, up to the first part that cannot be.  The places where
  something can go wrong are listed in the same order, level by level; so the fault of the whole is
  the first one that its places have.

    * `mapM_eq_ok_iff` — what a list is converted into.
    * `eq_mapM_zipIdx` — recursions that count their members convert them one by one.
    * `fault?_mapM_eq_findSome?`, `fault?_mapError_eq_findSome?` — the first fault of a level, and
      of the level above.
-/

import Mathlib.Data.List.Forall2

namespace PolicyLookup

variable {δ ε α β π : Type}

/-! ## §1. Results. -/

/-- What is made of a result shows that there was one. -/
theorem exists_of_map_eq_ok {x : Except ε α} {f : α → β} {b : β} (h : x.map f = .ok b) :
    ∃ a, x = .ok a ∧ b = f a := by
  cases x with
  | error e => cases h
  | ok a => exact ⟨a, rfl, (Except.ok.inj h).symm⟩

/-- Something is made of a result exactly if it is what is made of that result. -/
theorem map_eq_ok_iff {x : Except ε α} {f : α → β} {b : β} :
    x.map f = .ok b ↔ ∃ a, x = .ok a ∧ b = f a := by
  constructor
  · exact exists_of_map_eq_ok
  · rintro ⟨a, rfl, rfl⟩
    rfl

/-- Something is made of a result exactly if there is one. -/
theorem exists_map_eq_ok_iff {x : Except ε α} {f : α → β} :
    (∃ b, x.map f = .ok b) ↔ ∃ a, x = .ok a := by
  constructor
  · rintro ⟨b, hb⟩
    obtain ⟨a, ha, -⟩ := exists_of_map_eq_ok hb
    exact ⟨a, ha⟩
  · rintro ⟨a, rfl⟩
    exact ⟨f a, rfl⟩

/-- Another name for the fault makes no difference to a result. -/
theorem mapError_eq_ok_iff {x : Except δ α} {f : δ → ε} {a : α} :
    x.mapError f = .ok a ↔ x = .ok a := by
  cases x with
  | error e => exact ⟨nofun, nofun⟩
  | ok b =>
    show Except.ok b = .ok a ↔ Except.ok b = .ok a
    simp only [Except.ok.injEq]

/-! ## §2. Faults. -/

/-- The fault of an attempt. -/
def fault? : Except ε α → Option ε
  | .error e => some e
  | .ok _ => none

theorem fault?_map (f : α → β) (x : Except ε α) : fault? (x.map f) = fault? x := by
  cases x <;> rfl

theorem fault?_mapError (f : δ → ε) (x : Except δ α) :
    fault? (x.mapError f) = (fault? x).map f := by
  cases x <;> rfl

theorem fault?_eq_some_iff {x : Except ε α} {e : ε} : fault? x = some e ↔ x = .error e := by
  cases x <;> simp [fault?]

theorem fault?_eq_none_iff {x : Except ε α} : fault? x = none ↔ ∃ a, x = .ok a := by
  cases x <;> simp [fault?]

/-! ## §3. Lists of parts. -/

/-- The first part is converted before the others. -/
theorem mapM_cons_eq (f : α → Except ε β) (a : α) (rest : List α) :
    (a :: rest).mapM f = (f a).bind fun b => (rest.mapM f).map (b :: ·) := by
  rw [List.mapM_cons]
  rfl

/-- **A list is converted into what its members are converted into**, if all of them can be. -/
theorem mapM_eq_ok_iff {f : α → Except ε β} {as : List α} {bs : List β} :
    as.mapM f = .ok bs ↔ List.Forall₂ (fun a b => f a = .ok b) as bs := by
  induction as generalizing bs with
  | nil =>
    show Except.ok [] = Except.ok bs ↔ _
    rw [List.forall₂_nil_left_iff, Except.ok.injEq, eq_comm]
  | cons a rest ih =>
    rw [mapM_cons_eq, List.forall₂_cons_left_iff]
    cases f a with
    | error e => simp [Except.bind]
    | ok b => simp [Except.bind, map_eq_ok_iff, ih]

/-- **The fault of a list is the fault of its first member that has one.** -/
theorem fault?_mapM (f : α → Except ε β) (as : List α) :
    fault? (as.mapM f) = as.findSome? fun a => fault? (f a) := by
  induction as with
  | nil => rfl
  | cons a rest ih =>
    rw [mapM_cons_eq, List.findSome?_cons]
    cases f a with
    | error e => rfl
    -- After a member that can be converted the fault is that of the others, if they have one.
    | ok b => exact (fault?_map _ _).trans ih

/-- A recursion through a list that stops at the first fault converts the members one by one. -/
theorem eq_mapM {f : α → Except ε β} (F : List α → Except ε (List β)) (nil : F [] = .ok [])
    (cons : ∀ a rest, F (a :: rest) = (f a).bind fun b => (F rest).map (b :: ·)) (as : List α) :
    F as = as.mapM f := by
  induction as with
  | nil => exact nil
  | cons a rest ih => rw [cons, ih, mapM_cons_eq]

/-- So does one that counts them. -/
theorem eq_mapM_zipIdx {f : α × Nat → Except ε β} (F : Nat → List α → Except ε (List β))
    (nil : ∀ i, F i [] = .ok [])
    (cons : ∀ i a rest, F i (a :: rest) = (f (a, i)).bind fun b => (F (i + 1) rest).map (b :: ·))
    (i : Nat) (as : List α) : F i as = (as.zipIdx i).mapM f := by
  induction as generalizing i with
  | nil => exact nil i
  | cons a rest ih => rw [cons, ih, List.zipIdx_cons, mapM_cons_eq]

/-- Where positions show in faults only, they make no difference to what comes out. -/
theorem mapM_zipIdx_eq_ok_iff {f : α × Nat → Except ε β} {R : α → β → Prop}
    (h : ∀ p b, f p = .ok b ↔ R p.1 b) {i : Nat} {as : List α} {bs : List β} :
    (as.zipIdx i).mapM f = .ok bs ↔ List.Forall₂ R as bs := by
  simp only [mapM_eq_ok_iff, h]
  rw [← List.forall₂_map_left_iff (f := Prod.fst), List.zipIdx_map_fst]

/-! ## §4. Places. -/

/-- What stands at a place below a counted member. -/
theorem mem_flatMap_zipIdx {g : α × Nat → List π} {as : List α} {l : π} :
    l ∈ as.zipIdx.flatMap g ↔ ∃ (i : Nat) (a : α), as[i]? = some a ∧ l ∈ g (a, i) := by
  rw [List.mem_flatMap]
  constructor
  · rintro ⟨⟨a, i⟩, hmem, hl⟩
    exact ⟨i, a, List.mk_mem_zipIdx_iff_getElem?.mp hmem, hl⟩
  · rintro ⟨i, a, ha, hl⟩
    exact ⟨(a, i), List.mk_mem_zipIdx_iff_getElem?.mpr ha, hl⟩

variable {check : π → Option ε}

/-- **The fault of a list is the first fault at the places of its members**, if the same is true of
each member. -/
theorem fault?_mapM_eq_findSome? {f : α → Except ε β} {places : α → List π} {as : List α}
    (h : ∀ a ∈ as, fault? (f a) = (places a).findSome? check) :
    fault? (as.mapM f) = (as.flatMap places).findSome? check := by
  rw [fault?_mapM]
  induction as with
  | nil => rfl
  | cons a rest ih =>
    rw [List.findSome?_cons, List.flatMap_cons, List.findSome?_append, ← h a (.head _),
      ← ih fun a' ha' => h a' (.tail _ ha')]
    cases fault? (f a) <;> rfl

variable {shift : π → π} {up : ε → ε}

/-- Seen from one step further up the first fault stays the first one. -/
theorem findSome?_map_shift (hshift : ∀ l, check (shift l) = (check l).map up) (places : List π) :
    (places.map shift).findSome? check = (places.findSome? check).map up := by
  have hcheck : check ∘ shift = fun l => (check l).map up := funext hshift
  rw [List.findSome?_map, hcheck, List.map_findSome?]
  rfl

/-- **The fault of a part is the first fault at its places**, also if both are told from one step
further up. -/
theorem fault?_mapError_eq_findSome? {x : Except ε α} {places : List π}
    (hshift : ∀ l, check (shift l) = (check l).map up) (h : fault? x = places.findSome? check) :
    fault? (x.mapError up) = (places.map shift).findSome? check := by
  rw [fault?_mapError, h, findSome?_map_shift hshift]

end PolicyLookup
