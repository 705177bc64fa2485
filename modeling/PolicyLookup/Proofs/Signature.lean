/-
  PolicyLookup.Proofs.Signature — which declarations are valid.

  A name is read character by character, by two functions that call each other: one stands before an
  identifier, the other within one.  That is the same as cutting the name at every dot and asking
  that every piece is an identifier of ASCII letters, digits and underscores.  Nothing escapes the
  cut, so there is no room for blanks, line ends or look-alikes before, between or after the pieces.

    * `isName_iff` — names, piece by piece.
    * `mem_of_isName` — the characters of a name.
    * `validate_iff_identifiers` — which declarations are valid, and what is reported of the others.
-/

import Mathlib.Data.List.Basic
import PolicyLookup.Proofs.Number.Digits
import PolicyLookup.Signature

namespace PolicyLookup

namespace Signature

/-! ## §1. Characters. -/

/-- The letters of ASCII, capitals first. -/
theorem isAlpha_iff {c : Char} :
    c.isAlpha = true ↔ ('A' ≤ c ∧ c ≤ 'Z') ∨ ('a' ≤ c ∧ c ≤ 'z') := by
  have hletters : c.isAlpha = (decide ('A' ≤ c ∧ c ≤ 'Z') ||
      decide ('a' ≤ c) && decide (c ≤ 'z')) := rfl
  rw [hletters]
  simp only [Bool.or_eq_true, Bool.and_eq_true, decide_eq_true_eq]

theorem isNameStart_iff {c : Char} : isNameStart c = true ↔ c.isAlpha = true ∨ c = '_' := by
  rw [isAlpha_iff, or_comm (a := 'A' ≤ c ∧ c ≤ 'Z')]
  simp only [isNameStart, Bool.or_eq_true, Bool.and_eq_true, decide_eq_true_eq, beq_iff_eq]

theorem isNameRest_iff {c : Char} : isNameRest c = true ↔ c.isAlphanum = true ∨ c = '_' := by
  rw [isNameRest, Bool.or_eq_true, isNameStart_iff]
  simp only [Char.isAlphanum, Char.isDigit, Bool.or_eq_true, Bool.and_eq_true, decide_eq_true_eq,
    Char.le_def, ge_iff_le]
  rw [or_right_comm]

/-- The characters of identifiers, and the dot, are printable ASCII. -/
theorem toNat_of_isAlphanum {c : Char} (h : c.isAlphanum = true ∨ c = '_' ∨ c = '.') :
    46 ≤ c.toNat ∧ c.toNat ≤ 122 := by
  rcases h with h | rfl | rfl
  · simp only [Char.isAlphanum, Char.isDigit, Bool.or_eq_true, isAlpha_iff, Bool.and_eq_true,
      decide_eq_true_eq, ge_iff_le, Char.le_def, UInt32.le_iff_toNat_le] at h
    have hval : c.val.toNat = c.toNat := rfl
    have hbounds : 'A'.val.toNat = 65 ∧ 'Z'.val.toNat = 90 ∧ 'a'.val.toNat = 97 ∧
        'z'.val.toNat = 122 ∧ '0'.val.toNat = 48 ∧ '9'.val.toNat = 57 := by decide
    omega
  · decide
  · decide

/-! ## §2. Names, piece by piece. -/

/-- A letter or an underscore, and then letters, digits and underscores, all of them ASCII. -/
def IsIdentifier (part : List Char) : Prop :=
  ∃ c rest, part = c :: rest ∧ (c.isAlpha = true ∨ c = '_') ∧
    ∀ d ∈ rest, d.isAlphanum = true ∨ d = '_'

theorem not_isIdentifier_nil : ¬ IsIdentifier [] := by
  rintro ⟨c, rest, h, -⟩
  cases h

theorem isIdentifier_cons_iff {c : Char} {rest : List Char} : IsIdentifier (c :: rest) ↔
    (c.isAlpha = true ∨ c = '_') ∧ ∀ d ∈ rest, d.isAlphanum = true ∨ d = '_' := by
  constructor
  · rintro ⟨c', rest', h, hfirst, hothers⟩
    cases h
    exact ⟨hfirst, hothers⟩
  · rintro ⟨hfirst, hothers⟩
    exact ⟨c, rest, rfl, hfirst, hothers⟩

/-- What both readers find, in terms of the pieces between the dots: before an identifier all pieces
have to be identifiers; within one, the first piece is only the rest of it. -/
theorem isNameFrom_iff (cs : List Char) : ∃ part parts, cs.splitOn '.' = part :: parts ∧
    (isNameFromStart cs = true ↔ IsIdentifier part ∧ ∀ p ∈ parts, IsIdentifier p) ∧
    (isNameFromInside cs = true ↔
      (∀ d ∈ part, d.isAlphanum = true ∨ d = '_') ∧ ∀ p ∈ parts, IsIdentifier p) := by
  induction cs with
  | nil => exact ⟨[], [], rfl, by simp [isNameFromStart, not_isIdentifier_nil],
      by simp [isNameFromInside]⟩
  | cons c rest ih =>
    obtain ⟨part, parts, hsplit, hstart, hinside⟩ := ih
    rw [List.splitOn_cons_eq_if_modifyHead, hsplit]
    by_cases hdot : c = '.'
    · -- The dot ends a piece, which is empty if the dot comes first.
      subst hdot
      refine ⟨[], part :: parts, rfl, ?_, ?_⟩
      · have hfalse : isNameStart '.' = false := by decide
        simp [isNameFromStart, hfalse, not_isIdentifier_nil]
      · rw [isNameFromInside, if_pos rfl, hstart, List.forall_mem_cons]
        simp
    · refine ⟨c :: part, parts, by simp [hdot], ?_, ?_⟩
      · rw [isNameFromStart, Bool.and_eq_true, isNameStart_iff, hinside, isIdentifier_cons_iff,
          and_assoc]
      · rw [isNameFromInside, if_neg hdot, Bool.and_eq_true, isNameRest_iff, hinside,
          List.forall_mem_cons, and_assoc]

/-- All pieces between the dots of a name are identifiers. -/
def IsDotted (name : String) : Prop := ∀ part ∈ name.toList.splitOn '.', IsIdentifier part

/-- **A name is identifiers between dots.** -/
theorem isName_iff {name : String} : isName name = true ↔ IsDotted name := by
  obtain ⟨part, parts, hsplit, hstart, -⟩ := isNameFrom_iff name.toList
  rw [isName, hstart, IsDotted, hsplit, List.forall_mem_cons]

example : ["", "mongodb.", "9lives", "mongo db.query", "a..b", "a\n", "\u00e9"].all
    (fun name => !isName name) = true := by decide

/-- Every character of a name belongs to an identifier or is a dot. -/
theorem mem_of_isNameFrom (cs : List Char) :
    (isNameFromStart cs = true → ∀ c ∈ cs, c.isAlphanum = true ∨ c = '_' ∨ c = '.') ∧
    (isNameFromInside cs = true → ∀ c ∈ cs, c.isAlphanum = true ∨ c = '_' ∨ c = '.') := by
  induction cs with
  | nil => exact ⟨fun _ => nofun, fun _ => nofun⟩
  | cons c rest ih =>
    obtain ⟨hstart, hinside⟩ := ih
    have hrest : isNameRest c = true → c.isAlphanum = true ∨ c = '_' ∨ c = '.' := by
      intro h
      exact (isNameRest_iff.mp h).imp id Or.inl
    constructor
    · intro h
      obtain ⟨hc, h⟩ := Bool.and_eq_true_iff.mp h
      exact List.forall_mem_cons.mpr ⟨hrest (Bool.or_eq_true_iff.mpr (Or.inl hc)), hinside h⟩
    · intro h
      rw [isNameFromInside] at h
      split at h
      · next hdot => exact List.forall_mem_cons.mpr ⟨Or.inr (Or.inr hdot), hstart h⟩
      · obtain ⟨hc, h⟩ := Bool.and_eq_true_iff.mp h
        exact List.forall_mem_cons.mpr ⟨hrest hc, hinside h⟩

theorem mem_of_isName {name : String} (h : isName name = true) :
    ∀ c ∈ name.toList, c.isAlphanum = true ∨ c = '_' ∨ c = '.' :=
  (mem_of_isNameFrom name.toList).1 h

/-! ## §3. Declarations. -/

/-- A name is not one. -/
def badName (name : String) : Error :=
  .registration "name must be a dotted sequence of identifiers" name

/-- A declaration has too many arguments. -/
def tooManyArguments (f : Signature) : Error :=
  .registration ("too many arguments (" ++ toString f.args.length ++ ")") f.name

variable {f : Signature}

theorem validate_of_not_isName (h : isName f.name = false) :
    f.validate = .error (badName f.name) := by
  rw [validate, h]
  rfl

theorem validate_of_isName (h : isName f.name = true) :
    f.validate = if maxArity < f.arity then .error (tooManyArguments f) else .ok () := by
  rw [validate, h, tooManyArguments, ← Number.ofList_digits]
  rfl

theorem validate_eq_ok_iff :
    f.validate = .ok () ↔ IsDotted f.name ∧ f.args.length ≤ 255 := by
  rw [← isName_iff]
  cases hname : isName f.name with
  | false => simp [validate_of_not_isName hname]
  | true =>
    rw [validate_of_isName hname, ← Nat.not_lt]
    show (if 255 < f.args.length then _ else _) = _ ↔ _
    split
    · next h => simp [h]
    · next h => simp [h]

/-- Why a declaration is not valid: the name comes first. -/
theorem validate_eq_error_iff {e : Error} : f.validate = .error e ↔
    ¬ IsDotted f.name ∧ e = badName f.name ∨
      IsDotted f.name ∧ 255 < f.args.length ∧ e = tooManyArguments f := by
  rw [← isName_iff]
  cases hname : isName f.name with
  | false => simp [validate_of_not_isName hname, eq_comm]
  | true =>
    rw [validate_of_isName hname]
    show (if 255 < f.args.length then _ else _) = _ ↔ _
    split
    · next h => simp [h, eq_comm]
    · next h => simp [h]

/-- The two complaints differ in their first letter. -/
theorem badName_ne_tooManyArguments : badName f.name ≠ tooManyArguments f := by
  intro h
  have htext := congrArg (fun e : Error => e.detail.toList.head?) h
  simp [badName, tooManyArguments, Error.detail] at htext

/-- **Which declarations are valid.**  A declaration is valid exactly if all pieces between the dots
of its name are identifiers and it has at most 255 arguments.  If a piece is no identifier, that is
reported whatever the arguments are; the number of arguments is reported otherwise.  A valid name
has no characters but letters, digits, underscores and dots of ASCII. -/
theorem validate_iff_identifiers (f : Signature) :
    (f.validate = .ok () ↔
      (∀ part ∈ f.name.toList.splitOn '.', IsIdentifier part) ∧ f.args.length ≤ 255) ∧
    (f.validate = .error (badName f.name) ↔
      ¬ ∀ part ∈ f.name.toList.splitOn '.', IsIdentifier part) ∧
    (f.validate = .error (tooManyArguments f) ↔
      (∀ part ∈ f.name.toList.splitOn '.', IsIdentifier part) ∧ 255 < f.args.length) ∧
    (f.validate = .ok () → ∀ c ∈ f.name.toList,
      (c.isAlphanum = true ∨ c = '_' ∨ c = '.') ∧ c ≠ '\x00' ∧ c.toNat < 128) := by
  refine ⟨validate_eq_ok_iff, ?_, ?_, ?_⟩
  · show _ ↔ ¬ IsDotted f.name
    simp [validate_eq_error_iff, badName_ne_tooManyArguments]
  · show _ ↔ IsDotted f.name ∧ _
    simp [validate_eq_error_iff, badName_ne_tooManyArguments.symm]
  · intro hvalid c hc
    have hword := mem_of_isName (isName_iff.mpr (validate_eq_ok_iff.mp hvalid).1) c hc
    obtain ⟨hlow, hhigh⟩ := toNat_of_isAlphanum hword
    refine ⟨hword, ?_, Nat.lt_of_le_of_lt hhigh (by decide)⟩
    rintro rfl
    exact absurd hlow (by decide)

end Signature

end PolicyLookup
