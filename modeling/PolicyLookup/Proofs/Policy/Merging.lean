/-
  PolicyLookup.Proofs.Policy.Merging — what a data document leaves of itself.

  The object of a document has names for keys, each once.  A merge goes through its members in the
  order of their names and stops at the first one that is there already with another value.  What it
  has put in by then stays.  So the data afterwards are told by two look-ups: in the data before,
  and among the members ahead of the first conflict.

    * `ofJson_obj` — the object of a document is a mapping.
    * `lookup_mergePairs` — every look-up after a merge, whether it came to its end or not.
    * `mergePairs_of_known` — a merge that met known members only changes nothing.
-/

import PolicyLookup.Policy.Engine
import PolicyLookup.Value.Keyed

namespace PolicyLookup

namespace Term

/-! ## §1. Objects whose keys are names. -/

/-- The pairs of a mapping: its names are the keys. -/
def pairsOf (entries : List (String × Term)) : List (Term × Term) :=
  entries.map fun e => (.str e.1, e.2)

@[simp] theorem pairsOf_cons (e : String × Term) (rest : List (String × Term)) :
    pairsOf (e :: rest) = (.str e.1, e.2) :: pairsOf rest := rfl

theorem cmp_str_str (s t : String) : cmp (.str s) (.str t) = cmpString s t := by
  rw [cmp]

theorem cmpString_eq_iff {s t : String} : cmpString s t = .eq ↔ s = t := by
  unfold cmpString
  constructor
  · intro h
    by_cases hst : s < t
    · rw [if_pos hst] at h
      cases h
    · by_cases hts : t < s
      · rw [if_neg hst, if_pos hts] at h
        cases h
      · exact String.le_antisymm (String.not_lt.mp hts) (String.not_lt.mp hst)
  · rintro rfl
    rw [if_neg (String.lt_irrefl s), if_neg (String.lt_irrefl s)]

/-- A name is equal to itself, and to no other term. -/
theorem same_str_iff {s : String} {t : Term} : same (.str s) t = true ↔ t = .str s := by
  have hself : same (.str s) (.str s) = true := by
    unfold same
    rw [cmp_str_str, cmpString_eq_iff.mpr rfl]
  constructor
  · intro h
    cases t with
    | str u =>
      unfold same at h
      rw [cmp_str_str] at h
      cases hu : cmpString s u with
      | eq => rw [cmpString_eq_iff.mp hu]
      | lt => simp [hu] at h
      | gt => simp [hu] at h
    -- Terms of other kinds are told apart by their ranks.
    | _ => simp [same, cmp, rank, cmpNat] at h
  · rintro rfl
    exact hself

/-- Two names are equal exactly if they are the same. -/
@[simp] theorem same_str_str (s t : String) : same (.str s) (.str t) = decide (t = s) := by
  rw [Bool.eq_iff_iff, same_str_iff, decide_eq_true_iff, Term.str.injEq]

/-- A name that comes before another one, or after it, is not equal to it. -/
theorem same_eq_false_of_cmp {s t : Term} (h : cmp s t ≠ .eq) : same s t = false := by
  unfold same
  cases hst : cmp s t with
  | eq => exact absurd hst h
  | lt => rfl
  | gt => rfl

/-- **What is looked up after an insertion** is the new value, or what was there. -/
theorem lookup_insertPair (s k : String) (v : Term) (object : List (Term × Term)) :
    lookup (.str s) (insertPair (.str k) v object)
      = if s = k then some v else lookup (.str s) object := by
  induction object with
  | nil =>
    by_cases hs : s = k
    · simp [insertPair, lookup, hs]
    · simp [insertPair, lookup, hs, Ne.symm hs]
  | cons p rest ih =>
    obtain ⟨l, w⟩ := p
    -- The pair comes ahead of this one, takes its place, or goes further back.
    cases hl : cmp (.str k) l with
    | lt =>
      simp only [insertPair, hl, lookup]
      by_cases hs : s = k
      · simp [hs]
      · simp [hs, Ne.symm hs]
    | eq =>
      -- The key that is there is the same name.
      obtain rfl : l = .str k := same_str_iff.mp (by unfold same; rw [hl])
      simp only [insertPair, hl, lookup]
      by_cases hs : s = k
      · simp [hs]
      · simp [hs, Ne.symm hs]
    | gt =>
      simp only [insertPair, hl, lookup, ih]
      by_cases hs : s = k
      · have hne : same (.str s) l = false := same_eq_false_of_cmp (by rw [hs, hl]; decide)
        simp [hs, hs ▸ hne]
      · simp [hs]

/-- Insertion under a name is insertion into the mapping. -/
theorem insertPair_pairsOf (k : String) (v : Term) (entries : List (String × Term)) :
    insertPair (.str k) v (pairsOf entries) = pairsOf (Keyed.insert k v entries) := by
  induction entries with
  | nil => rfl
  | cons e rest ih =>
    obtain ⟨k', v'⟩ := e
    rw [pairsOf_cons, insertPair, Keyed.insert, cmp_str_str]
    by_cases hlt : k < k'
    · simp only [cmpString, if_pos hlt]
      rfl
    · by_cases heq : k = k'
      · subst heq
        simp only [cmpString_eq_iff.mpr, if_neg hlt, if_true]
        rfl
      · have hgt : k' < k :=
          String.not_le.mp fun hle => heq (String.le_antisymm hle (String.not_lt.mp hlt))
        simp only [cmpString, if_neg hlt, if_pos hgt, if_neg heq, ih]
        rfl

theorem foldl_insertPair_pairsOf (entries object : List (String × Term)) :
    (pairsOf entries).foldl (fun o p => insertPair p.1 p.2 o) (pairsOf object)
      = pairsOf (entries.foldl (fun m e => Keyed.insert e.1 e.2 m) object) := by
  induction entries generalizing object with
  | nil => rfl
  | cons e rest ih =>
    rw [pairsOf_cons, List.foldl_cons, insertPair_pairsOf, ih, List.foldl_cons]

/-- The mapping of the members of a document. -/
def entriesOf (members : List (String × Json)) : List (String × Term) :=
  Keyed.ofList (members.map fun m => (m.1, ofJson m.2))

theorem ofJsonMembers_eq (members : List (String × Json)) :
    ofJsonMembers members = pairsOf (members.map fun m => (m.1, ofJson m.2)) := by
  induction members with
  | nil => rfl
  | cons m rest ih =>
    obtain ⟨k, j⟩ := m
    rw [ofJsonMembers, ih]
    rfl

/-- **The object of a document is a mapping.** -/
theorem ofJson_obj (members : List (String × Json)) :
    ofJson (.obj members) = .obj (pairsOf (entriesOf members)) := by
  rw [ofJson, objectOf, ofJsonMembers_eq]
  exact congrArg Term.obj (foldl_insertPair_pairsOf _ [])

end Term

namespace Policy.Engine

/-! ## §2. Merging. -/

/-- A member is not in the way of an object: its name is new, or it is there with an equal value. -/
def Agrees (object : List (Term × Term)) (e : String × Term) : Bool :=
  match Term.lookup (.str e.1) object with
  | none => true
  | some old => Term.same old e.2

/-- The members that a merge gets to: those ahead of the first that is in its way. -/
def reached (object : List (Term × Term)) (entries : List (String × Term)) :
    List (String × Term) :=
  entries.takeWhile (Agrees object)

variable {object : List (Term × Term)} {entries : List (String × Term)}

/-- A member that is not in the way does not end a merge. -/
theorem reached_cons_of_agrees {e : String × Term} (h : Agrees object e = true) :
    reached object (e :: entries) = e :: reached object entries := by
  unfold reached
  rw [List.takeWhile_cons, if_pos h]

/-- A merge does not get past a member that is in its way. -/
theorem reached_cons_of_not_agrees {e : String × Term} (h : Agrees object e = false) :
    reached object (e :: entries) = [] := by
  unfold reached
  rw [List.takeWhile_cons, if_neg (by rw [h]; exact Bool.false_ne_true)]

/-- Other names are not in each other's way. -/
theorem agrees_insertPair {k : String} (v : Term) {e : String × Term} (h : k < e.1) :
    Agrees (Term.insertPair (.str k) v object) e = Agrees object e := by
  have hne : e.1 ≠ k := by
    intro heq
    rw [heq] at h
    exact String.lt_irrefl k h
  unfold Agrees
  rw [Term.lookup_insertPair, if_neg hne]

/-- Putting in a member leaves the way of those after it as it is. -/
theorem reached_insertPair {k : String} (v : Term) (h : ∀ e ∈ entries, k < e.1) :
    reached (Term.insertPair (.str k) v object) entries = reached object entries := by
  induction entries with
  | nil => rfl
  | cons e rest ih =>
    have hrest := ih fun e' he' => h e' (.tail _ he')
    have hagrees : Agrees (Term.insertPair (.str k) v object) e = Agrees object e :=
      agrees_insertPair v (h e (.head _))
    by_cases he : Agrees object e = true
    · rw [reached_cons_of_agrees he, reached_cons_of_agrees (hagrees.trans he), hrest]
    · have hfalse : Agrees object e = false := Bool.not_eq_true _ ▸ he
      rw [reached_cons_of_not_agrees hfalse, reached_cons_of_not_agrees (hagrees.trans hfalse)]

/-- **One step of a merge**: a new member is put in, one that is there already is passed over, and
one that is there with another value ends the merge. -/
theorem mergePairs_cons (k : String) (v : Term) (rest : List (String × Term))
    (object : List (Term × Term)) :
    (Term.lookup (.str k) object = none ∧ Agrees object (k, v) = true ∧
      mergePairs (Term.pairsOf ((k, v) :: rest)) object
        = mergePairs (Term.pairsOf rest) (Term.insertPair (.str k) v object)) ∨
    (∃ old, Term.lookup (.str k) object = some old ∧ Agrees object (k, v) = true ∧
      mergePairs (Term.pairsOf ((k, v) :: rest)) object
        = mergePairs (Term.pairsOf rest) object) ∨
    (Agrees object (k, v) = false ∧
      mergePairs (Term.pairsOf ((k, v) :: rest)) object = (false, object)) := by
  rw [Term.pairsOf_cons, mergePairs]
  unfold Agrees
  cases hk : Term.lookup (.str k) object with
  | none =>
    left
    exact ⟨rfl, rfl, rfl⟩
  | some old =>
    right
    cases hsame : Term.same old v with
    | true =>
      left
      exact ⟨old, rfl, hsame, by simp only [hsame, if_true]⟩
    | false =>
      right
      exact ⟨hsame, by simp only [hsame, Bool.false_eq_true, if_false]⟩

/-- **What is looked up after a merge** was there before, or is one of the members that the merge
has got to. -/
theorem lookup_mergePairs (hentries : Keyed.Ascending entries) (s : String) :
    Term.lookup (.str s) (mergePairs (Term.pairsOf entries) object).2
      = (Term.lookup (.str s) object).or (Keyed.get? (reached object entries) s) := by
  -- The induction is on the members; the object that they are merged into grows on the way.
  induction entries generalizing object with
  | nil =>
    show Term.lookup (.str s) object = (Term.lookup (.str s) object).or none
    rw [Option.or_none]
  | cons e rest ih =>
    obtain ⟨k, v⟩ := e
    obtain ⟨hfirst, hrest⟩ := List.pairwise_cons.mp hentries
    rcases mergePairs_cons k v rest object with ⟨hk, hagrees, hstep⟩ | ⟨old, hk, hagrees, hstep⟩
      | ⟨hagrees, hstep⟩
    · -- The member is new: from now on it is found under its name.
      rw [hstep, ih hrest, reached_insertPair v hfirst, Term.lookup_insertPair,
        reached_cons_of_agrees hagrees, Keyed.get?]
      by_cases hs : s = k
      · simp [hs, hk]
      · simp [hs, Ne.symm hs]
    · rw [hstep, ih hrest, reached_cons_of_agrees hagrees, Keyed.get?]
      by_cases hs : s = k
      · simp [hs, hk]
      · simp [Ne.symm hs]
    · -- The merge ends: neither this member nor one after it is found.
      rw [hstep, reached_cons_of_not_agrees hagrees, Keyed.get?, Option.or_none]

/-- A merge that gets to known members only leaves the object as it was. -/
theorem mergePairs_of_known
    (h : ∀ e ∈ reached object entries, Term.lookup (.str e.1) object ≠ none) :
    (mergePairs (Term.pairsOf entries) object).2 = object := by
  induction entries with
  | nil => rfl
  | cons e rest ih =>
    obtain ⟨k, v⟩ := e
    rcases mergePairs_cons k v rest object with ⟨hk, hagrees, hstep⟩ | ⟨old, -, hagrees, hstep⟩
      | ⟨-, hstep⟩
    · -- Then the merge gets to it, although it is not known.
      rw [reached_cons_of_agrees hagrees] at h
      exact absurd hk (h (k, v) (.head _))
    · rw [reached_cons_of_agrees hagrees] at h
      rw [hstep]
      exact ih fun e he => h e (.tail _ he)
    · rw [hstep]

end Policy.Engine

end PolicyLookup
