/-
  PolicyLookup.Proofs.Store.Namespaces — whose documents a find sees.

  A store in memory keeps the documents of a collection under one text: the name of the database, a
  dot, and the name of the collection.  Where a name has a dot of its own, the text does not tell
  which of its dots separates the two, so a find sees the documents of every pair of names with the
  same text, in the order of their insertion.  Collections are kept apart for certain only where
  neither name has a dot.

    * `documents_insertAll` — what is kept under a text after a history of insertions.
    * `namespaceOf_eq_iff` — when two pairs of names have the same text.
    * `isolated_iff` — when a find sees the documents of its own collection only.
-/

import Mathlib.Tactic.ByContra
import PolicyLookup.Store.Memory

namespace PolicyLookup

namespace MemoryStore

/-! ## §1. Histories of insertions. -/

/-- Documents that are inserted at once, and where. -/
structure Insertion where
  database : String
  collection : String
  documents : List Document

namespace Insertion

/-- The text under which the documents are kept. -/
def key (i : Insertion) : String := namespaceOf i.database i.collection

/-- The documents go to the given collection. -/
def GoesTo (i : Insertion) (database collection : String) : Prop :=
  i.database = database ∧ i.collection = collection

instance (i : Insertion) (database collection : String) :
    Decidable (i.GoesTo database collection) :=
  inferInstanceAs (Decidable (_ ∧ _))

end Insertion

/-- The store after some insertions. -/
def insertAll (s : MemoryStore) (history : List Insertion) : MemoryStore :=
  history.foldl (fun s i => s.insert i.database i.collection i.documents) s

/-- The documents that have been inserted under a text, in the order of their insertion. -/
def keptUnder (key : String) (history : List Insertion) : List Document :=
  (history.filter fun i => i.key = key).flatMap Insertion.documents

/-- The documents that have been inserted into a collection, in the order of their insertion. -/
def insertedInto (database collection : String) (history : List Insertion) : List Document :=
  (history.filter fun i => i.GoesTo database collection).flatMap Insertion.documents

theorem documents_append (key : String) (ds : List Document)
    (collections : List (String × List Document)) (k : String) :
    documents (append key ds collections) k
      = documents collections k ++ if key = k then ds else [] := by
  induction collections with
  | nil => simp [append, documents]
  | cons entry rest ih =>
    obtain ⟨k', old⟩ := entry
    by_cases hkey : k' = key
    · subst hkey
      by_cases hk : k' = k <;> simp [append, documents, hk]
    · by_cases hk : k' = k
      · subst hk
        simp [append, documents, hkey, Ne.symm hkey]
      · simp only [append, if_neg hkey, documents, if_neg hk, ih]

/-- **What is kept under a text** is what was there before, and then what has been inserted. -/
theorem documents_insertAll (s : MemoryStore) (history : List Insertion) (key : String) :
    documents (s.insertAll history).collections key
      = documents s.collections key ++ keptUnder key history := by
  induction history generalizing s with
  | nil => exact (List.append_nil _).symm
  | cons i rest ih =>
    have hstep : documents (s.insert i.database i.collection i.documents).collections key
        = documents s.collections key ++ if i.key = key then i.documents else [] :=
      documents_append _ _ _ _
    rw [insertAll, List.foldl_cons, ← insertAll, ih, hstep, List.append_assoc]
    by_cases hkey : i.key = key <;> simp [keptUnder, hkey]

theorem findFailure_insertAll (s : MemoryStore) (history : List Insertion) :
    (s.insertAll history).findFailure = s.findFailure := by
  induction history generalizing s with
  | nil => rfl
  | cons i rest ih => exact ih _

/-- The answer of a store that was empty before the insertions. -/
theorem answer_insertAll {s : MemoryStore} (hempty : s.collections = [])
    (hcalm : s.findFailure = none) (history : List Insertion) (r : FindRequest) :
    (s.insertAll history).answer r
      = .ok (((keptUnder (namespaceOf r.database r.collection) history).filter
          (selects r.filter)).take r.maxDocuments) := by
  unfold answer select
  rw [findFailure_insertAll, hcalm, documents_insertAll, hempty]
  rfl

/-! ## §2. Names with the same text. -/

/-- One name of a database goes on, behind a dot, with what the other name of a collection begins
with, before a dot. -/
def Overlap (database collection database' collection' : String) : Prop :=
  ∃ between, (database' = database ++ "." ++ between ∧ collection = between ++ "." ++ collection') ∨
    (database = database' ++ "." ++ between ∧ collection' = between ++ "." ++ collection)

variable {database collection database' collection' : String}

theorem toList_namespaceOf (database collection : String) :
    (namespaceOf database collection).toList = database.toList ++ '.' :: collection.toList := by
  unfold namespaceOf
  simp

theorem namespaceOf_dotted (database between collection : String) :
    namespaceOf (database ++ "." ++ between) collection
      = namespaceOf database (between ++ "." ++ collection) := by
  unfold namespaceOf
  simp only [String.append_assoc]

/-- A text with a dot is what is before the dot and what is behind it. -/
theorem eq_dotted {s : String} {cs ds : List Char} (h : s.toList = cs ++ '.' :: ds) :
    s = String.ofList cs ++ "." ++ String.ofList ds := by
  apply String.toList_inj.mp
  rw [h]
  simp

/-- Names that overlap are different. -/
theorem Overlap.database_ne (h : Overlap database collection database' collection') :
    database' ≠ database := by
  intro heq
  subst heq
  obtain ⟨between, ⟨h, -⟩ | ⟨h, -⟩⟩ := h
  all_goals
    have hlength := congrArg String.length h
    simp only [String.length_append] at hlength
    have hdot : ".".length = 1 := rfl
    omega

/-- **When two pairs of names have the same text**: they are the same, or one of the names goes on
in the other. -/
theorem namespaceOf_eq_iff : namespaceOf database' collection' = namespaceOf database collection ↔
    (database' = database ∧ collection' = collection) ∨
      Overlap database collection database' collection' := by
  constructor
  · intro h
    have hchars := congrArg String.toList h
    rw [toList_namespaceOf, toList_namespaceOf, List.append_eq_append_iff] at hchars
    rcases hchars with ⟨cs, hdatabase, hrest⟩ | ⟨cs, hdatabase, hrest⟩
    -- What one of the databases has more is nothing, or begins with the dot of the other.
    · cases cs with
      | nil =>
        rw [List.append_nil] at hdatabase
        exact Or.inl ⟨(String.toList_inj.mp hdatabase).symm,
          String.toList_inj.mp (List.cons.inj hrest).2⟩
      | cons c cs =>
        obtain ⟨rfl, htail⟩ := List.cons.inj hrest
        refine Or.inr ⟨String.ofList cs, Or.inr ⟨?_, ?_⟩⟩
        · simpa using eq_dotted hdatabase
        · simpa using eq_dotted htail
    · cases cs with
      | nil =>
        rw [List.append_nil] at hdatabase
        exact Or.inl ⟨String.toList_inj.mp hdatabase,
          (String.toList_inj.mp (List.cons.inj hrest).2).symm⟩
      | cons c cs =>
        obtain ⟨rfl, htail⟩ := List.cons.inj hrest
        refine Or.inr ⟨String.ofList cs, Or.inl ⟨?_, ?_⟩⟩
        · simpa using eq_dotted hdatabase
        · simpa using eq_dotted htail
  · rintro (⟨rfl, rfl⟩ | ⟨between, ⟨rfl, rfl⟩ | ⟨rfl, rfl⟩⟩)
    · rfl
    · exact namespaceOf_dotted database between collection'
    · exact (namespaceOf_dotted database' between collection).symm

/-- Some other pair of names has the same text exactly if one of the two names has a dot. -/
theorem exists_overlap_iff :
    (∃ database' collection', Overlap database collection database' collection') ↔
      '.' ∈ database.toList ∨ '.' ∈ collection.toList := by
  constructor
  · rintro ⟨database', collection', between, ⟨-, rfl⟩ | ⟨rfl, -⟩⟩
    · exact Or.inr (by simp)
    · exact Or.inl (by simp)
  · rintro (h | h)
    · obtain ⟨cs, ds, hdot⟩ := List.append_of_mem h
      exact ⟨_, _, String.ofList ds, Or.inr ⟨eq_dotted hdot, rfl⟩⟩
    · obtain ⟨cs, ds, hdot⟩ := List.append_of_mem h
      exact ⟨_, _, String.ofList cs, Or.inl ⟨rfl, eq_dotted hdot⟩⟩

/-! ## §3. Collections that are kept apart. -/

/-- A find in a collection brings the first matching documents of those that have been inserted into
this collection, and no others, whatever it asks for. -/
def Isolated (s : MemoryStore) (history : List Insertion) (database collection : String) : Prop :=
  ∀ filter maxDocuments timeBudget,
    (s.insertAll history).answer ⟨database, collection, filter, maxDocuments, timeBudget⟩
      = .ok (((insertedInto database collection history).filter (selects filter)).take maxDocuments)

/-- Under a text there is what has been inserted into the collection, and what else has been
inserted under that text. -/
theorem length_keptUnder (database collection : String) (history : List Insertion) :
    (keptUnder (namespaceOf database collection) history).length
      = (insertedInto database collection history).length
        + ((history.filter fun i => i.key = namespaceOf database collection ∧
            ¬ i.GoesTo database collection).flatMap Insertion.documents).length := by
  induction history with
  | nil => rfl
  | cons i rest ih =>
    unfold keptUnder insertedInto at ih ⊢
    by_cases hgoes : i.GoesTo database collection
    · have hkey : i.key = namespaceOf database collection := by
        rw [Insertion.key, hgoes.1, hgoes.2]
      simp [hgoes, hkey, ih, Nat.add_assoc]
    · by_cases hkey : i.key = namespaceOf database collection
      · simp [hgoes, hkey, ih, Nat.add_left_comm]
      · simp [hgoes, hkey, ih]

theorem keptUnder_eq_insertedInto {history : List Insertion}
    (h : ∀ i ∈ history, i.documents ≠ [] →
      ¬ Overlap database collection i.database i.collection) :
    keptUnder (namespaceOf database collection) history
      = insertedInto database collection history := by
  induction history with
  | nil => rfl
  | cons i rest ih =>
    have hrest := ih fun i' hi' => h i' (.tail _ hi')
    unfold keptUnder insertedInto at hrest ⊢
    by_cases hgoes : i.GoesTo database collection
    · have hkey : i.key = namespaceOf database collection := by
        rw [Insertion.key, hgoes.1, hgoes.2]
      simp [hgoes, hkey, hrest]
    · by_cases hkey : i.key = namespaceOf database collection
      · -- The names overlap, so nothing has been inserted.
        have hnone : i.documents = [] := by
          by_contra hsome
          rcases namespaceOf_eq_iff.mp hkey with hsame | hoverlap
          · exact hgoes hsame
          · exact h i (.head _) hsome hoverlap
        simp [hgoes, hkey, hnone, hrest]
      · simp [hgoes, hkey, hrest]

variable {s : MemoryStore}

/-- A collection is kept apart exactly if all that is kept under its text has been inserted into
it. -/
theorem isolated_iff_keptUnder (hempty : s.collections = []) (hcalm : s.findFailure = none)
    {history : List Insertion} : s.Isolated history database collection ↔
      keptUnder (namespaceOf database collection) history
        = insertedInto database collection history := by
  constructor
  · intro h
    -- The find asks for everything: any fields, and as many documents as there are.
    have hall := h [] (keptUnder (namespaceOf database collection) history).length 0
    have hselects : ∀ ds : List Document, ds.filter (selects []) = ds := fun ds =>
      List.filter_eq_self.mpr fun _ _ => rfl
    have hlength := length_keptUnder database collection history
    rw [answer_insertAll hempty hcalm, hselects, hselects, List.take_length] at hall
    rw [Except.ok.inj hall]
    exact List.take_of_length_le (by omega)
  · intro h filter maxDocuments timeBudget
    rw [answer_insertAll hempty hcalm, h]

/-- A collection is kept apart exactly if nothing has been inserted under names that overlap with
its own. -/
theorem isolated_iff_overlap (hempty : s.collections = []) (hcalm : s.findFailure = none)
    {history : List Insertion} : s.Isolated history database collection ↔
      ∀ i ∈ history, i.documents ≠ [] →
        ¬ Overlap database collection i.database i.collection := by
  rw [isolated_iff_keptUnder hempty hcalm]
  constructor
  · intro h i hi hsome hoverlap
    have hlength := length_keptUnder database collection history
    rw [h, Nat.left_eq_add, List.length_eq_zero_iff, List.flatMap_eq_nil_iff] at hlength
    refine hsome (hlength i (List.mem_filter.mpr ⟨hi, ?_⟩))
    have hkey : i.key = namespaceOf database collection := namespaceOf_eq_iff.mpr (Or.inr hoverlap)
    simp [hkey, Insertion.GoesTo, hoverlap.database_ne]
  · exact keptUnder_eq_insertedInto

/-- **Which collections are kept apart.**  A store that was empty and that finds do not fail on
answers a find with the first matching documents among those that were inserted under the text of
the names that the find asks for, in the order of their insertion.  So after a given history a find
sees the documents of its own collection only exactly if nothing was inserted under other names with
this text, that is, names that overlap with its own; and it does so after every history exactly if
neither name has a dot. -/
theorem isolated_iff (hempty : s.collections = []) (hcalm : s.findFailure = none) :
    (∀ history r, (s.insertAll history).answer r
      = .ok (((keptUnder (namespaceOf r.database r.collection) history).filter
          (selects r.filter)).take r.maxDocuments)) ∧
    (∀ history database collection, s.Isolated history database collection ↔
      ∀ i ∈ history, i.documents ≠ [] → ¬ Overlap database collection i.database i.collection) ∧
    ∀ database collection, (∀ history, s.Isolated history database collection) ↔
      '.' ∉ database.toList ∧ '.' ∉ collection.toList := by
  refine ⟨answer_insertAll hempty hcalm, fun _ _ _ => isolated_iff_overlap hempty hcalm,
    fun database collection => ?_⟩
  have hdots : '.' ∉ database.toList ∧ '.' ∉ collection.toList ↔
      ¬ ∃ database' collection', Overlap database collection database' collection' := by
    rw [exists_overlap_iff, not_or]
  rw [hdots]
  constructor
  · rintro h ⟨database', collection', hoverlap⟩
    -- One document under the other names is enough.
    exact (isolated_iff_overlap hempty hcalm).mp (h [⟨database', collection', [[]]⟩]) _
      (.head _) (List.cons_ne_nil _ _) hoverlap
  · intro h history
    exact (isolated_iff_overlap hempty hcalm).mpr fun i _ _ hoverlap => h ⟨_, _, hoverlap⟩

/-- An insertion into the collection `users` of a database with a dot in its name. -/
def dotted : List Insertion := [⟨"shop.archive", "users", [[("name", .str "alice")]]⟩]

theorem isolated_iff_dotted : empty.collections = [] ∧ empty.findFailure = none ∧
    empty.Isolated dotted "shop" "users" ∧ ¬ empty.Isolated dotted "shop" "archive.users" := by
  obtain ⟨-, hisolated, hdots⟩ := isolated_iff (s := empty) rfl rfl
  refine ⟨rfl, rfl, (hdots _ _).mpr (by decide) dotted, fun h => ?_⟩
  exact (hisolated _ _ _).mp h _ (.head _) (List.cons_ne_nil _ _) ⟨"archive", Or.inl ⟨rfl, rfl⟩⟩

/-- **Collections are not kept apart**: the document of the database `shop.archive` is found in a
collection of the database `shop`. -/
theorem not_isolated :
    (empty.insertAll dotted).answer ⟨"shop", "archive.users", [], 10, 0⟩
        = .ok [[("name", .str "alice")]] ∧
      insertedInto "shop" "archive.users" dotted = [] ∧
      ¬ ∀ history database collection, empty.Isolated history database collection := by
  refine ⟨rfl, by decide, fun h => ?_⟩
  have hfound := h dotted "shop" "archive.users" [] 10 0
  cases hfound

end MemoryStore

end PolicyLookup
