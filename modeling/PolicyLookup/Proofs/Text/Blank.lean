/-
  PolicyLookup.Proofs.Text.Blank — what trimming leaves.

  Trimming takes the white space away at both ends of a text.  It leaves nothing exactly if there is
  nothing but white space; otherwise the first and the last character of what it leaves are not
  blank, so it passes every check for blank texts.

    * `isBlank_iff` — what counts as white space.
    * `trim_eq_empty_iff` — when nothing is left.
    * `isTrimmed_trim` — the ends of what is left.
    * `IsTrimmed.isNonblank` — it is not blank.
-/

import Mathlib.Data.List.DropRight
import PolicyLookup.Text.Blank

namespace PolicyLookup.Text

/-- The code points with the property `White_Space`, one by one. -/
def whiteSpace : List Nat :=
  [0x9, 0xA, 0xB, 0xC, 0xD, 0x20, 0x85, 0xA0, 0x1680, 0x2000, 0x2001, 0x2002, 0x2003, 0x2004,
    0x2005, 0x2006, 0x2007, 0x2008, 0x2009, 0x200A, 0x2028, 0x2029, 0x202F, 0x205F, 0x3000]

/-- A character is white space. -/
def IsWhiteSpace (c : Char) : Prop := c.toNat ∈ whiteSpace

/-- A text has a character that is not white space. -/
def IsNonblank (s : String) : Prop := ∃ c ∈ s.toList, ¬ IsWhiteSpace c

/-- A text that is not empty and has no white space at its ends. -/
structure IsTrimmed (s : String) : Prop where
  ne_empty : s ≠ ""
  first : ∀ c, s.toList.head? = some c → ¬ IsWhiteSpace c
  last : ∀ c, s.toList.getLast? = some c → ¬ IsWhiteSpace c

/-! ## §1. Characters. -/

/-- **Blanks are white space**, and nothing else is. -/
theorem isBlank_iff {c : Char} : isBlank c = true ↔ IsWhiteSpace c := by
  simp only [isBlank, IsWhiteSpace, whiteSpace, Bool.or_eq_true, Bool.and_eq_true,
    decide_eq_true_eq, beq_iff_eq, List.mem_cons, List.not_mem_nil, or_false]
  omega

theorem isBlank_eq_false_iff {c : Char} : isBlank c = false ↔ ¬ IsWhiteSpace c := by
  rw [← Bool.not_eq_true, isBlank_iff]

theorem trimChars_eq_rdropWhile (cs : List Char) :
    trimChars cs = (cs.dropWhile isBlank).rdropWhile isBlank :=
  rfl

theorem first_of_dropWhile {cs : List Char} {c : Char}
    (h : (cs.dropWhile isBlank).head? = some c) : isBlank c = false := by
  have hnot := List.head?_dropWhile_not isBlank cs
  rw [h] at hnot
  exact hnot

/-- Only blanks leave nothing. -/
theorem trimChars_eq_nil_iff {cs : List Char} :
    trimChars cs = [] ↔ ∀ c ∈ cs, isBlank c = true := by
  rw [trimChars_eq_rdropWhile, List.rdropWhile_eq_nil_iff, ← List.dropWhile_eq_nil_iff,
    List.dropWhile_idempotent, List.dropWhile_eq_nil_iff]

theorem first_of_trimChars {cs : List Char} {c : Char} (h : (trimChars cs).head? = some c) :
    isBlank c = false := by
  rw [trimChars_eq_rdropWhile] at h
  obtain ⟨rest, hrest⟩ := List.rdropWhile_prefix isBlank (cs.dropWhile isBlank)
  have hfirst : (cs.dropWhile isBlank).head? = some c := by
    rw [← hrest, List.head?_append, h]
    rfl
  exact first_of_dropWhile hfirst

theorem last_of_trimChars {cs : List Char} {c : Char} (h : (trimChars cs).getLast? = some c) :
    isBlank c = false := by
  have hne : trimChars cs ≠ [] := by
    intro hnil
    rw [hnil] at h
    cases h
  rw [List.getLast?_eq_some_getLast hne] at h
  rw [← Option.some.inj h]
  exact Bool.eq_false_iff.mpr (List.rdropWhile_last_not isBlank _ hne)

/-! ## §2. Texts. -/

variable {s : String}

theorem isBlankText_eq_false_iff : isBlankText s = false ↔ IsNonblank s := by
  unfold isBlankText IsNonblank
  rw [List.all_eq_false]
  simp only [isBlank_iff]

/-- **Nothing is left exactly of blank texts.** -/
theorem trim_eq_empty_iff : trim s = "" ↔ isBlankText s = true := by
  unfold trim isBlankText
  rw [List.all_eq_true, ← trimChars_eq_nil_iff, ← String.toList_inj, String.toList_ofList]
  rfl

/-- **What is left has no white space at its ends.** -/
theorem isTrimmed_trim (h : IsNonblank s) : IsTrimmed (trim s) where
  ne_empty := by
    rw [Ne, trim_eq_empty_iff, isBlankText_eq_false_iff.mpr h]
    exact Bool.false_ne_true
  first := by
    intro c hc
    rw [trim, String.toList_ofList] at hc
    exact isBlank_eq_false_iff.mp (first_of_trimChars hc)
  last := by
    intro c hc
    rw [trim, String.toList_ofList] at hc
    exact isBlank_eq_false_iff.mp (last_of_trimChars hc)

/-- A trimmed text is not blank. -/
theorem IsTrimmed.isNonblank (h : IsTrimmed s) : IsNonblank s := by
  cases hs : s.toList with
  | nil => exact absurd (String.toList_eq_nil_iff.mp hs) h.ne_empty
  | cons c rest =>
    refine ⟨c, ?_, h.first c (by rw [hs]; rfl)⟩
    rw [hs]
    exact List.mem_cons_self

end PolicyLookup.Text
