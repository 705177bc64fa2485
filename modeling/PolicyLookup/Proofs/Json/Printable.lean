/-
  PolicyLookup.Proofs.Json.Printable — texts of documents have no control characters.

  Control characters in strings are escaped, numbers are made of digits and a few signs, and the
  rest is punctuation.  In particular no text has the character zero.
-/

import PolicyLookup.Proofs.Json.Literal

namespace PolicyLookup

namespace Json

open Number

/-- A text without control characters. -/
def Printable (cs : List Char) : Prop := ∀ c ∈ cs, 32 ≤ c.toNat

namespace Printable

@[simp] theorem nil : Printable [] := nofun

@[simp] theorem cons_iff {c : Char} {cs : List Char} :
    Printable (c :: cs) ↔ 32 ≤ c.toNat ∧ Printable cs := List.forall_mem_cons

@[simp] theorem append_iff {as bs : List Char} :
    Printable (as ++ bs) ↔ Printable as ∧ Printable bs := List.forall_mem_append

end Printable

/-! ## §1. Numbers. -/

theorem printable_of_isDigit {cs : List Char} (h : ∀ c ∈ cs, isDigit c = true) : Printable cs := by
  intro c hc
  have hdigit := h c hc
  unfold isDigit digit? at hdigit
  split at hdigit
  · omega
  · cases hdigit

theorem printable_spelling {p : Literal.Spelling} (hp : p.Proper) : Printable p.chars := by
  have hsign : Printable (if p.negative then ['-'] else []) := by
    cases p.negative <;> simp
  have hfraction : Printable (Literal.Spelling.fractionChars p.fraction) := by
    have hdigits := printable_of_isDigit hp.fraction
    cases hf : p.fraction with
    | nil => exact Printable.nil
    | cons c cs =>
      rw [hf] at hdigits
      exact Printable.cons_iff.mpr ⟨by decide, hdigits⟩
  have hexponent : Printable (Literal.Spelling.exponentChars p.exponent) := by
    cases p.exponent with
    | none => exact Printable.nil
    | some e =>
      have hdigits := printable_of_isDigit (isDigit_of_mem_digits e.natAbs)
      refine Printable.cons_iff.mpr ⟨by decide, Printable.cons_iff.mpr ⟨?_, hdigits⟩⟩
      split <;> decide
  unfold Literal.Spelling.chars
  simp only [Printable.append_iff]
  exact ⟨hsign, printable_of_isDigit hp.whole, hfraction, hexponent⟩

theorem printable_intDigits (n : Int) : Printable (intDigits n) := by
  rw [← Literal.Spelling.chars_ofInt]
  exact printable_spelling (Literal.Spelling.proper_ofInt n)

theorem printable_floatChars (x : Binary64) : Printable (floatChars x) := by
  unfold floatChars
  split
  · obtain ⟨p, -, hchars, hproper, -⟩ := Literal.exists_spelling x
    rw [← hchars]
    exact printable_spelling hproper
  · simp

/-! ## §2. Strings. -/

theorem printable_fixed (width n : Nat) : Printable (Text.Hex.fixed width n) := by
  have key : ∀ d : Fin 16, 32 ≤ (Text.Hex.digit d.val).toNat := by decide
  induction width generalizing n with
  | zero => exact Printable.nil
  | succ width ih =>
    have hdigit := key ⟨n % 16, Nat.mod_lt n (by decide)⟩
    unfold Text.Hex.fixed
    exact Printable.append_iff.mpr ⟨ih (n / 16), Printable.cons_iff.mpr ⟨hdigit, Printable.nil⟩⟩

theorem printable_escape (c : Char) : Printable (escape c) := by
  unfold escape
  repeat' split
  all_goals try simp only [Printable.cons_iff, Printable.nil, and_true]
  all_goals try decide
  · exact ⟨by decide, by decide, printable_fixed 4 c.toNat⟩
  · omega

theorem printable_quote (s : String) : Printable (quote s) := by
  have hbody : Printable (s.toList.flatMap escape) := by
    intro c hc
    obtain ⟨d, -, hd⟩ := List.mem_flatMap.mp hc
    exact printable_escape d c hd
  unfold quote
  simp [hbody]

/-! ## §3. Documents. -/

mutual

/-- **The text of a document has no control characters.** -/
theorem printable_chars : ∀ j : Json, Printable j.chars
  | .null => by simp [chars]
  | .bool true => by simp [chars, boolChars]
  | .bool false => by simp [chars, boolChars]
  | .int n => printable_intDigits n
  | .float x => printable_floatChars x
  | .str s => printable_quote s
  | .arr items => by
    have := printable_itemsChars items
    simp [chars, this]
  | .obj members => by
    have := printable_membersChars members
    simp [chars, this]

theorem printable_itemsChars : ∀ items : List Json, Printable (itemsChars items)
  | [] => by simp [itemsChars]
  | [j] => printable_chars j
  | j :: i :: items => by
    have hfirst := printable_chars j
    have hrest := printable_itemsChars (i :: items)
    simp [itemsChars, hfirst, hrest]

theorem printable_membersChars : ∀ members : List (String × Json), Printable (membersChars members)
  | [] => by simp [membersChars]
  | [(k, j)] => by
    have hname := printable_quote k
    have hvalue := printable_chars j
    simp [membersChars, hname, hvalue]
  | (k, j) :: m :: members => by
    have hname := printable_quote k
    have hvalue := printable_chars j
    have hrest := printable_membersChars (m :: members)
    simp [membersChars, hname, hvalue, hrest]

end

end Json

end PolicyLookup
