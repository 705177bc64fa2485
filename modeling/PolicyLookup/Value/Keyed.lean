/-
  PolicyLookup.Value.Keyed — association lists whose keys ascend.

  Keys are ordered by their characters' code points, which is also the order of their UTF-8
  bytes.  `insert` keeps the order and lets the later of two values for a key win, so
  `ofList` turns any list of pairs into a mapping.
-/

namespace PolicyLookup.Keyed

variable {α : Type}

/-- Keys ascend strictly, hence each occurs once. -/
def Ascending (entries : List (String × α)) : Prop :=
  entries.Pairwise fun a b => a.1 < b.1

/-- Puts a value at its key's place, replacing the value that was there. -/
def insert (key : String) (value : α) : List (String × α) → List (String × α)
  | [] => [(key, value)]
  | (k, v) :: rest =>
    if key < k then (key, value) :: (k, v) :: rest
    else if key = k then (key, value) :: rest
    else (k, v) :: insert key value rest

/-- The mapping of a list of pairs; of two values for a key the later one counts. -/
def ofList (entries : List (String × α)) : List (String × α) :=
  entries.foldl (fun m e => insert e.1 e.2 m) []

/-- The value at a key. -/
def get? : List (String × α) → String → Option α
  | [], _ => none
  | (k, v) :: rest, key => if k = key then some v else get? rest key

/-! ## §1. Insertion and selection through the look-up. -/

theorem get?_insert (key k : String) (value : α) (entries : List (String × α)) :
    get? (insert key value entries) k = if key = k then some value else get? entries k := by
  induction entries with
  | nil => simp [insert, get?]
  | cons e rest ih =>
    obtain ⟨k', v⟩ := e
    unfold insert
    split
    · simp [get?]
    · split
      · next h => subst h; by_cases hk : key = k <;> simp [get?, hk]
      · next hne =>
        simp only [get?, ih]
        by_cases hk : key = k
        · subst hk; simp [Ne.symm hne]
        · simp [hk]

/-- The entries under some of the keys. -/
theorem get?_filter (p : String → Bool) (entries : List (String × α)) (k : String) :
    get? (entries.filter fun e => p e.1) k = if p k then get? entries k else none := by
  induction entries with
  | nil => simp [get?]
  | cons e rest ih =>
    obtain ⟨k', v⟩ := e
    rw [List.filter_cons]
    by_cases heq : k' = k
    · subst heq
      by_cases hp : p k' = true
      · simp [hp, get?]
      · simp only [hp, Bool.false_eq_true, if_false, ih]
    · by_cases hp : p k' = true
      · simp only [hp, if_true, get?, if_neg heq, ih]
      · simp only [hp, Bool.false_eq_true, if_false, get?, if_neg heq, ih]

/-! ## §2. Lists that ascend. -/

/-- A key above all others comes last. -/
theorem insert_of_lt {key : String} {value : α} {entries : List (String × α)}
    (h : ∀ e ∈ entries, e.1 < key) : insert key value entries = entries ++ [(key, value)] := by
  induction entries with
  | nil => rfl
  | cons e rest ih =>
    obtain ⟨k, v⟩ := e
    have hk : k < key := h (k, v) (.head _)
    have hne : key ≠ k := by
      rintro rfl
      exact String.lt_irrefl key hk
    rw [insert, if_neg (String.lt_asymm hk), if_neg hne, ih fun e he => h e (.tail _ he)]
    rfl

theorem foldl_insert {m entries : List (String × α)} (h : Ascending (m ++ entries)) :
    entries.foldl (fun m e => insert e.1 e.2 m) m = m ++ entries := by
  induction entries generalizing m with
  | nil => rw [List.foldl_nil, List.append_nil]
  | cons e rest ih =>
    have hlast : ∀ e' ∈ m, e'.1 < e.1 := fun e' he' =>
      (List.pairwise_append.mp h).2.2 e' he' e (.head _)
    have hassoc : m ++ e :: rest = m ++ [e] ++ rest := by
      rw [List.append_assoc, List.singleton_append]
    rw [hassoc] at h ⊢
    rw [List.foldl_cons, insert_of_lt hlast]
    exact ih h

/-- A list that ascends is a mapping already. -/
theorem ofList_of_ascending {entries : List (String × α)} (h : Ascending entries) :
    ofList entries = entries :=
  foldl_insert (m := []) h

/-- Lists with the same keys ascend alike. -/
theorem ascending_of_map_fst_eq {β : Type} {entries : List (String × α)}
    {others : List (String × β)} (hkeys : others.map Prod.fst = entries.map Prod.fst)
    (h : Ascending entries) : Ascending others := by
  unfold Ascending at h ⊢
  rw [← List.pairwise_map (f := Prod.fst) (R := fun a b : String => a < b)] at h ⊢
  rw [hkeys]
  exact h

/-! ## §3. Members. -/

variable {e : String × α}

theorem mem_of_mem_insert {key : String} {value : α} {entries : List (String × α)}
    (h : e ∈ insert key value entries) : e = (key, value) ∨ e ∈ entries := by
  induction entries with
  | nil => exact Or.inl (List.mem_singleton.mp h)
  | cons e' rest ih =>
    obtain ⟨k, v⟩ := e'
    unfold insert at h
    split at h
    · exact List.mem_cons.mp h
    · split at h
      · rcases List.mem_cons.mp h with h | h
        · exact Or.inl h
        · exact Or.inr (.tail _ h)
      · rcases List.mem_cons.mp h with h | h
        · exact Or.inr (h ▸ .head _)
        · exact (ih h).imp id (.tail _)

theorem mem_of_mem_foldl {m entries : List (String × α)}
    (h : e ∈ entries.foldl (fun m e => insert e.1 e.2 m) m) : e ∈ m ∨ e ∈ entries := by
  induction entries generalizing m with
  | nil => exact Or.inl h
  | cons e' rest ih =>
    rcases ih h with h | h
    · rcases mem_of_mem_insert h with rfl | h
      · exact Or.inr (.head _)
      · exact Or.inl h
    · exact Or.inr (.tail _ h)

/-- A mapping has entries of the list only. -/
theorem mem_of_mem_ofList {entries : List (String × α)} (h : e ∈ ofList entries) : e ∈ entries := by
  rcases mem_of_mem_foldl h with h | h
  · cases h
  · exact h

/-- Insertion adds its key, if it is not there. -/
theorem mem_keys_insert {key k : String} {value : α} {entries : List (String × α)} :
    k ∈ (insert key value entries).map Prod.fst ↔ k = key ∨ k ∈ entries.map Prod.fst := by
  induction entries with
  | nil => simp [insert]
  | cons e rest ih =>
    obtain ⟨k', v⟩ := e
    unfold insert
    split
    · simp
    · split
      · next heq => simp [heq]
      · simp only [List.map_cons, List.mem_cons, ih]
        rw [or_left_comm]

theorem mem_keys_foldl {k : String} {m entries : List (String × α)} :
    k ∈ (entries.foldl (fun m e => insert e.1 e.2 m) m).map Prod.fst ↔
      k ∈ m.map Prod.fst ∨ k ∈ entries.map Prod.fst := by
  induction entries generalizing m with
  | nil => simp
  | cons e rest ih =>
    rw [List.foldl_cons, ih, mem_keys_insert, List.map_cons, List.mem_cons, or_assoc,
      or_left_comm]

/-- A mapping has the keys of the list. -/
theorem mem_keys_ofList {k : String} {entries : List (String × α)} :
    k ∈ (ofList entries).map Prod.fst ↔ k ∈ entries.map Prod.fst := by
  unfold ofList
  rw [mem_keys_foldl]
  simp

/-! ## §4. Mappings ascend. -/

/-- Insertion keeps the order. -/
theorem ascending_insert {key : String} {value : α} {entries : List (String × α)}
    (h : Ascending entries) : Ascending (insert key value entries) := by
  induction entries with
  | nil => exact List.pairwise_singleton _ _
  | cons e rest ih =>
    obtain ⟨k, v⟩ := e
    obtain ⟨hfirst, hrest⟩ := List.pairwise_cons.mp h
    unfold insert
    split
    · next hlt =>
      refine .cons ?_ h
      intro e he
      rcases List.mem_cons.mp he with rfl | he
      · exact hlt
      · exact String.lt_trans hlt (hfirst e he)
    · next hlt =>
      split
      · next heq =>
        subst heq
        exact .cons hfirst hrest
      · next hne =>
        have hlt' : k < key :=
          String.not_le.mp fun hle => hne (String.le_antisymm hle (String.not_lt.mp hlt))
        refine .cons ?_ (ih hrest)
        intro e he
        rcases mem_of_mem_insert he with rfl | he
        · exact hlt'
        · exact hfirst e he

theorem ascending_foldl {m : List (String × α)} (entries : List (String × α)) (h : Ascending m) :
    Ascending (entries.foldl (fun m e => insert e.1 e.2 m) m) := by
  induction entries generalizing m with
  | nil => exact h
  | cons e rest ih => exact ih (ascending_insert h)

/-- Whatever the pairs are, their mapping ascends. -/
theorem ascending_ofList (entries : List (String × α)) : Ascending (ofList entries) :=
  ascending_foldl entries .nil

/-! ## §5. Lists with distinct keys. -/

/-- Keys that ascend are distinct. -/
theorem nodup_of_ascending {entries : List (String × α)} (h : Ascending entries) :
    (entries.map Prod.fst).Nodup := by
  rw [List.Nodup, List.pairwise_map]
  refine h.imp fun {a b} hlt heq => ?_
  rw [heq] at hlt
  exact String.lt_irrefl b.1 hlt

/-- A key that is not there is added, wherever its place is. -/
theorem perm_insert {key : String} {value : α} {entries : List (String × α)}
    (h : key ∉ entries.map Prod.fst) :
    (insert key value entries).Perm ((key, value) :: entries) := by
  induction entries with
  | nil => exact .refl _
  | cons e rest ih =>
    obtain ⟨k, v⟩ := e
    rw [List.map_cons, List.mem_cons, not_or] at h
    obtain ⟨hne, hrest⟩ := h
    by_cases hlt : key < k
    · rw [insert, if_pos hlt]
    · rw [insert, if_neg hlt, if_neg hne]
      exact (List.Perm.cons _ (ih hrest)).trans (.swap _ _ _)

theorem perm_foldl {m entries : List (String × α)}
    (h : ((m ++ entries).map Prod.fst).Nodup) :
    (entries.foldl (fun m e => insert e.1 e.2 m) m).Perm (m ++ entries) := by
  induction entries generalizing m with
  | nil => rw [List.append_nil]; exact .refl _
  | cons e rest ih =>
    have hmove : (m ++ e :: rest).Perm (e :: m ++ rest) := List.perm_middle
    have hnodup := (hmove.map Prod.fst).nodup h
    have hnew : e.1 ∉ m.map Prod.fst := by
      rw [List.cons_append, List.map_cons, List.map_append] at hnodup
      exact fun hmem => (List.nodup_cons.mp hnodup).1 (List.mem_append_left _ hmem)
    have hinsert : (insert e.1 e.2 m ++ rest).Perm (e :: m ++ rest) :=
      (perm_insert hnew).append_right rest
    exact ((ih ((hinsert.map Prod.fst).symm.nodup hnodup)).trans hinsert).trans hmove.symm

/-- **A list with distinct keys is only put in order.** -/
theorem perm_ofList {entries : List (String × α)} (h : (entries.map Prod.fst).Nodup) :
    (ofList entries).Perm entries :=
  perm_foldl (m := []) h

/-- What is found at a key stands there. -/
theorem mem_of_get? {entries : List (String × α)} {k : String} {v : α}
    (h : get? entries k = some v) : (k, v) ∈ entries := by
  induction entries with
  | nil => cases h
  | cons e rest ih =>
    obtain ⟨k', v'⟩ := e
    rw [get?] at h
    split at h
    · next heq =>
      rw [heq, Option.some.inj h]
      exact .head _
    · exact .tail _ (ih h)

/-- Distinct keys are found with their values. -/
theorem get?_eq_some_iff {entries : List (String × α)} (h : (entries.map Prod.fst).Nodup)
    {k : String} {v : α} : get? entries k = some v ↔ (k, v) ∈ entries := by
  refine ⟨mem_of_get?, fun hmem => ?_⟩
  induction entries with
  | nil => cases hmem
  | cons e rest ih =>
    obtain ⟨k', v'⟩ := e
    obtain ⟨hnew, hrest⟩ := List.nodup_cons.mp h
    rcases List.mem_cons.mp hmem with heq | hmem
    · cases heq
      exact if_pos rfl
    · have hne : k' ≠ k := by
        rintro rfl
        exact hnew (List.mem_map.mpr ⟨_, hmem, rfl⟩)
      rw [get?, if_neg hne]
      exact ih hrest hmem

end PolicyLookup.Keyed
