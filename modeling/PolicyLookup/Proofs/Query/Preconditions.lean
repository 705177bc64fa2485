/-
  PolicyLookup.Proofs.Query.Preconditions — what a query needs before anything leaves for the store.

  There must be a connection, the name must be one that a collection can have, and the signal must
  not have fired.  A query asks for these in this order.  If all of them hold it is a find; if not,
  the first that does not hold is its error, and nothing leaves for the store.

    * `checkCollection_eq` — which names pass, and what is said of the others.
    * `permit_eq_ok_iff` — what gets past all checks.
    * `run_of_permitted`, `run_of_not_permitted` — what a query is in either case.
-/

import PolicyLookup.Query.Lookup

namespace PolicyLookup

/-! ## §1. Names of collections. -/

/-- A name that a collection can have. -/
structure IsCollectionName (name : String) : Prop where
  nonempty : name ≠ ""
  no_dollar : '$' ∉ name.toList
  no_nul : '\x00' ∉ name.toList

theorem isCollectionName_iff {name : String} :
    IsCollectionName name ↔ name ≠ "" ∧ '$' ∉ name.toList ∧ '\x00' ∉ name.toList :=
  ⟨fun h => ⟨h.nonempty, h.no_dollar, h.no_nul⟩, fun h => ⟨h.1, h.2.1, h.2.2⟩⟩

instance (name : String) : Decidable (IsCollectionName name) :=
  decidable_of_iff _ isCollectionName_iff.symm

namespace Query

/-- What is said of a name that no collection can have. -/
def invalidName (name : String) : Error :=
  .type ("argument 1: " ++
    if name = "" then "collection name must not be empty"
    else "invalid collection name " ++ Text.Quoted.quote name) (some 1)

/-- A name has a forbidden character if it has one of two. -/
theorem any_isForbidden_iff {chars : List Char} :
    chars.any isForbidden = true ↔ '$' ∈ chars ∨ '\x00' ∈ chars := by
  simp only [List.any_eq_true, isForbidden, Bool.or_eq_true, decide_eq_true_eq]
  constructor
  · rintro ⟨c, hc, rfl | rfl⟩
    · exact Or.inl hc
    · exact Or.inr hc
  · rintro (h | h)
    · exact ⟨_, h, Or.inl rfl⟩
    · exact ⟨_, h, Or.inr rfl⟩

/-- **A name passes exactly if a collection can have it**; another one is blamed on the first
argument. -/
theorem checkCollection_eq (name : String) : checkCollection name =
    if IsCollectionName name then .ok () else .error (invalidName name) := by
  unfold checkCollection invalidName
  by_cases hempty : name = ""
  · have hname : ¬ IsCollectionName name := fun h => h.nonempty hempty
    rw [if_pos (String.isEmpty_iff.mpr hempty), if_neg hname, if_pos hempty]
    rfl
  · rw [if_neg (mt String.isEmpty_iff.mp hempty), if_neg hempty]
    by_cases hforbidden : '$' ∈ name.toList ∨ '\x00' ∈ name.toList
    · have hname : ¬ IsCollectionName name := by
        rintro ⟨-, hdollar, hnul⟩
        exact hforbidden.elim hdollar hnul
      rw [if_pos (any_isForbidden_iff.mpr hforbidden), if_neg hname]
      rfl
    · have hname : IsCollectionName name :=
        ⟨hempty, fun h => hforbidden (Or.inl h), fun h => hforbidden (Or.inr h)⟩
      rw [if_neg (mt any_isForbidden_iff.mp hforbidden), if_pos hname]

/-! ## §2. All checks. -/

/-- There is a connection, and the collection has a name that one can have. -/
structure Setting.Admits (s : Setting) (collection : String) : Prop where
  connection : s.connection ≠ none
  name : IsCollectionName collection

instance (s : Setting) (collection : String) : Decidable (s.Admits collection) :=
  decidable_of_iff (s.connection.isSome = true ∧ IsCollectionName collection) <| by
    rw [Option.isSome_iff_ne_none]
    exact ⟨fun h => ⟨h.1, h.2⟩, fun h => ⟨h.connection, h.name⟩⟩

variable {limits : QueryLimits} {collection : String} {filter : Mapping} {s : Setting}
  {c : Connection DocumentStore} {connection : Option (Connection DocumentStore)}

/-- The error of a query that does not get past its checks: the first precondition that does not
hold. -/
def refusal (connection : Option (Connection DocumentStore)) (collection : String) : Error :=
  match connection with
  | none => .query .notInitialized "connection manager has not been initialized" none
  | some _ =>
    if IsCollectionName collection then
      .query .cancelled "evaluation was canceled before the query started" none
    else invalidName collection

theorem refusal_of_not_isCollectionName (h : connection ≠ none)
    (hname : ¬ IsCollectionName collection) :
    refusal connection collection = invalidName collection := by
  obtain ⟨c, rfl⟩ := Option.ne_none_iff_exists'.mp h
  exact if_neg hname

theorem refusal_of_isCollectionName (h : connection ≠ none)
    (hname : IsCollectionName collection) : refusal connection collection =
      .query .cancelled "evaluation was canceled before the query started" none := by
  obtain ⟨c, rfl⟩ := Option.ne_none_iff_exists'.mp h
  exact if_pos hname

/-- **What gets past all checks.** -/
theorem permit_eq_ok_iff : permit collection s = .ok c ↔
    s.connection = some c ∧ IsCollectionName collection ∧ s.hasFired = false := by
  unfold permit
  rw [checkCollection_eq]
  cases s.connection with
  | none => simp
  | some c' =>
    by_cases hname : IsCollectionName collection
    · cases s.hasFired <;> simp [hname]
    · simp [hname]

/-- What does not get past the checks fails with the first that it does not pass. -/
theorem permit_of_not_permitted (h : ¬ (s.Admits collection ∧ s.hasFired = false)) :
    permit collection s = .error (refusal s.connection collection) := by
  unfold permit refusal
  rw [checkCollection_eq]
  cases hconnection : s.connection with
  | none => rfl
  | some c =>
    by_cases hname : IsCollectionName collection
    · have hfired : s.hasFired = true := eq_true_of_ne_false fun hnot =>
        h ⟨⟨by simp [hconnection], hname⟩, hnot⟩
      simp only [if_pos hname, hfired, if_true]
      rfl
    · simp only [if_neg hname]

/-- A query that gets past its checks is a find. -/
theorem run_of_permitted (hconnection : s.connection = some c)
    (hcollection : IsCollectionName collection) (hfired : s.hasFired = false) :
    run limits collection filter s = find limits collection filter c s.firesIn := by
  unfold run
  rw [permit_eq_ok_iff.mpr ⟨hconnection, hcollection, hfired⟩]

/-- **A query that does not get past its checks is refused**, and nothing leaves for the store. -/
theorem run_of_not_permitted (limits : QueryLimits) (filter : Mapping)
    (h : ¬ (s.Admits collection ∧ s.hasFired = false)) :
    run limits collection filter s = .refused (refusal s.connection collection) := by
  unfold run
  rw [permit_of_not_permitted h]

end Query

end PolicyLookup
