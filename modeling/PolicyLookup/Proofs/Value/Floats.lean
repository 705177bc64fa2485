/-
  PolicyLookup.Proofs.Value.Floats — the doubles inside a value.

  What can go wrong with a value on its way to a policy and back concerns its doubles alone.  They
  are listed in reading order, sequences by index and mappings by key, and can be replaced one by
  one while everything else in the value stays where it is.

    * `mapFloats_eq_self` — nothing changes where every double is replaced by itself.
-/

import PolicyLookup.Value.Encoding

namespace PolicyLookup

namespace Value

mutual

/-- The doubles inside a value, in reading order. -/
def floats : Value → List Binary64
  | .null => []
  | .bool _ => []
  | .int _ => []
  | .float x => [x]
  | .str _ => []
  | .seq items => itemsFloats items
  | .map entries => entriesFloats entries

/-- The doubles inside the items of a sequence. -/
def itemsFloats : List Value → List Binary64
  | [] => []
  | v :: rest => floats v ++ itemsFloats rest

/-- The doubles inside the entries of a mapping. -/
def entriesFloats : List (String × Value) → List Binary64
  | [] => []
  | (_, v) :: rest => floats v ++ entriesFloats rest

end

mutual

/-- The same value with each double replaced. -/
def mapFloats (f : Binary64 → Value) : Value → Value
  | .null => .null
  | .bool b => .bool b
  | .int n => .int n
  | .float x => f x
  | .str s => .str s
  | .seq items => .seq (itemsMapFloats f items)
  | .map entries => .map (entriesMapFloats f entries)

/-- The same items with each double replaced. -/
def itemsMapFloats (f : Binary64 → Value) : List Value → List Value
  | [] => []
  | v :: rest => mapFloats f v :: itemsMapFloats f rest

/-- The same entries with each double replaced. -/
def entriesMapFloats (f : Binary64 → Value) : List (String × Value) → List (String × Value)
  | [] => []
  | (k, v) :: rest => (k, mapFloats f v) :: entriesMapFloats f rest

end

theorem mem_itemsFloats {items : List Value} {x : Binary64} :
    x ∈ itemsFloats items ↔ ∃ v ∈ items, x ∈ v.floats := by
  induction items with
  | nil => simp [itemsFloats]
  | cons v rest ih => simp [itemsFloats, ih]

theorem mem_entriesFloats {entries : List (String × Value)} {x : Binary64} :
    x ∈ entriesFloats entries ↔ ∃ e ∈ entries, x ∈ e.2.floats := by
  induction entries with
  | nil => simp [entriesFloats]
  | cons e rest ih =>
    obtain ⟨k, v⟩ := e
    rw [entriesFloats, List.mem_append, ih]
    simp

/-! ## §1. Replacing doubles. -/

variable {f : Binary64 → Value}

mutual

/-- Nothing changes where every double is replaced by itself. -/
theorem mapFloats_eq_self : ∀ (v : Value), (∀ x ∈ v.floats, f x = .float x) → v.mapFloats f = v
  | .null, _ => rfl
  | .bool _, _ => rfl
  | .int _, _ => rfl
  | .float x, h => h x (.head _)
  | .str _, _ => rfl
  | .seq items, h => by rw [mapFloats, itemsMapFloats_eq_self items h]
  | .map entries, h => by rw [mapFloats, entriesMapFloats_eq_self entries h]

theorem itemsMapFloats_eq_self : ∀ (items : List Value),
    (∀ x ∈ itemsFloats items, f x = .float x) → itemsMapFloats f items = items
  | [], _ => rfl
  | v :: rest, h => by
    rw [itemsMapFloats, mapFloats_eq_self v fun x hx => h x (List.mem_append_left _ hx),
      itemsMapFloats_eq_self rest fun x hx => h x (List.mem_append_right _ hx)]

theorem entriesMapFloats_eq_self : ∀ (entries : List (String × Value)),
    (∀ x ∈ entriesFloats entries, f x = .float x) → entriesMapFloats f entries = entries
  | [], _ => rfl
  | (k, v) :: rest, h => by
    rw [entriesMapFloats, mapFloats_eq_self v fun x hx => h x (List.mem_append_left _ hx),
      entriesMapFloats_eq_self rest fun x hx => h x (List.mem_append_right _ hx)]

end

mutual

/-- Where nothing has changed every double has been replaced by itself. -/
theorem eq_float_of_mapFloats_eq_self : ∀ (v : Value), v.mapFloats f = v →
    ∀ x ∈ v.floats, f x = .float x
  | .null, _ => List.forall_mem_nil _
  | .bool _, _ => List.forall_mem_nil _
  | .int _, _ => List.forall_mem_nil _
  | .float x, h => by
    intro y hy
    obtain rfl := List.mem_singleton.mp hy
    exact h
  | .str _, _ => List.forall_mem_nil _
  | .seq items, h => eq_float_of_itemsMapFloats_eq_self items (Value.seq.inj h)
  | .map entries, h => eq_float_of_entriesMapFloats_eq_self entries (Value.map.inj h)

theorem eq_float_of_itemsMapFloats_eq_self : ∀ (items : List Value),
    itemsMapFloats f items = items → ∀ x ∈ itemsFloats items, f x = .float x
  | [], _ => List.forall_mem_nil _
  | v :: rest, h => by
    obtain ⟨hv, hrest⟩ := List.cons.inj h
    intro x hx
    rcases List.mem_append.mp hx with hx | hx
    · exact eq_float_of_mapFloats_eq_self v hv x hx
    · exact eq_float_of_itemsMapFloats_eq_self rest hrest x hx

theorem eq_float_of_entriesMapFloats_eq_self : ∀ (entries : List (String × Value)),
    entriesMapFloats f entries = entries → ∀ x ∈ entriesFloats entries, f x = .float x
  | [], _ => List.forall_mem_nil _
  | (k, v) :: rest, h => by
    obtain ⟨hv, hrest⟩ := List.cons.inj h
    intro x hx
    rcases List.mem_append.mp hx with hx | hx
    · exact eq_float_of_mapFloats_eq_self v (Prod.mk.inj hv).2 x hx
    · exact eq_float_of_entriesMapFloats_eq_self rest hrest x hx

end

mutual

/-- What is inside a value afterwards has come with the replacement of a double. -/
theorem mem_floats_mapFloats : ∀ (v : Value) {y : Binary64}, y ∈ (v.mapFloats f).floats →
    ∃ x ∈ v.floats, y ∈ (f x).floats
  | .null, _, h => nomatch h
  | .bool _, _, h => nomatch h
  | .int _, _, h => nomatch h
  | .float x, _, h => ⟨x, .head _, h⟩
  | .str _, _, h => nomatch h
  | .seq items, _, h => mem_itemsFloats_mapFloats items h
  | .map entries, _, h => mem_entriesFloats_mapFloats entries h

theorem mem_itemsFloats_mapFloats : ∀ (items : List Value) {y : Binary64},
    y ∈ itemsFloats (itemsMapFloats f items) → ∃ x ∈ itemsFloats items, y ∈ (f x).floats
  | [], _, h => nomatch h
  | v :: rest, _, h => by
    rcases List.mem_append.mp h with h | h
    · obtain ⟨x, hx, hy⟩ := mem_floats_mapFloats v h
      exact ⟨x, List.mem_append_left _ hx, hy⟩
    · obtain ⟨x, hx, hy⟩ := mem_itemsFloats_mapFloats rest h
      exact ⟨x, List.mem_append_right _ hx, hy⟩

theorem mem_entriesFloats_mapFloats : ∀ (entries : List (String × Value)) {y : Binary64},
    y ∈ entriesFloats (entriesMapFloats f entries) → ∃ x ∈ entriesFloats entries, y ∈ (f x).floats
  | [], _, h => nomatch h
  | (_, v) :: rest, _, h => by
    rcases List.mem_append.mp h with h | h
    · obtain ⟨x, hx, hy⟩ := mem_floats_mapFloats v h
      exact ⟨x, List.mem_append_left _ hx, hy⟩
    · obtain ⟨x, hx, hy⟩ := mem_entriesFloats_mapFloats rest h
      exact ⟨x, List.mem_append_right _ hx, hy⟩

end

/-- The keys of a mapping stay. -/
theorem map_fst_entriesMapFloats (entries : List (String × Value)) :
    (entriesMapFloats f entries).map Prod.fst = entries.map Prod.fst := by
  induction entries with
  | nil => rfl
  | cons e rest ih =>
    obtain ⟨k, v⟩ := e
    rw [entriesMapFloats, List.map_cons, List.map_cons, ih]

theorem ascending_entriesMapFloats {entries : List (String × Value)}
    (h : Keyed.Ascending entries) : Keyed.Ascending (entriesMapFloats f entries) :=
  Keyed.ascending_of_map_fst_eq (map_fst_entriesMapFloats entries) h

mutual

/-- Mappings stay in order. -/
theorem ordered_mapFloats (hf : ∀ x, (f x).Ordered) : ∀ (v : Value), v.Ordered →
    (v.mapFloats f).Ordered
  | .null, _ => trivial
  | .bool _, _ => trivial
  | .int _, _ => trivial
  | .float x, _ => hf x
  | .str _, _ => trivial
  | .seq items, h => allOrdered_mapFloats hf items h
  | .map entries, h =>
    ⟨ascending_entriesMapFloats h.1, entriesOrdered_mapFloats hf entries h.2⟩

theorem allOrdered_mapFloats (hf : ∀ x, (f x).Ordered) : ∀ (items : List Value),
    AllOrdered items → AllOrdered (itemsMapFloats f items)
  | [], _ => trivial
  | v :: rest, h => ⟨ordered_mapFloats hf v h.1, allOrdered_mapFloats hf rest h.2⟩

theorem entriesOrdered_mapFloats (hf : ∀ x, (f x).Ordered) :
    ∀ (entries : List (String × Value)), EntriesOrdered entries →
      EntriesOrdered (entriesMapFloats f entries)
  | [], _ => trivial
  | (_, v) :: rest, h => ⟨ordered_mapFloats hf v h.1, entriesOrdered_mapFloats hf rest h.2⟩

end

end Value

end PolicyLookup
