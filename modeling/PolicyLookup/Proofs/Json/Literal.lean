/-
  PolicyLookup.Proofs.Json.Literal — numbers survive being written and read.

  A number text is spelled by its sign, the digits before and after the point, and its exponent.
  The reader finds the spelling again, as long as the text stops after it (`read_chars`).  Integers
  and doubles are written in such spellings, and what these denote is what was written:

    * `toFloat?_eq_nearest?` — a literal is read as the nearest double, whatever its exponent.
    * `readInt`, `readFloat` — the reader returns the integer, or the double, that was written.
-/

import Mathlib.Tactic.Ring
import PolicyLookup.Json.Writer
import PolicyLookup.Json.Literal
import PolicyLookup.Proofs.Number.Digits
import PolicyLookup.Proofs.Number.Shortest

namespace PolicyLookup

namespace Json

open Number

namespace Literal

/-! ## §1. Exponents far outside the range of doubles. -/

/-- The number that a literal denotes, up to its sign. -/
def magnitude (l : Literal) : Rat := Decimal.value ⟨l.coefficient, l.exponent⟩

theorem two_pow_lt_ten_pow : (2 : Rat) ^ (1076 : Int) < (10 : Rat) ^ (400 : Int) := by
  rw [show (1076 : Int) = ((1076 : Nat) : Int) from rfl,
    show (400 : Int) = ((400 : Nat) : Int) from rfl, two_zpow_natCast, ten_zpow_natCast]
  exact_mod_cast (by decide +kernel : 2 ^ 1076 < 10 ^ 400)

/-- The number of digits and the exponent say how large a literal is. -/
theorem magnitude_bounds {l : Literal} (h : l.coefficient ≠ 0) :
    (10 : Rat) ^ (l.exponent + (digits l.coefficient).length - 1) ≤ l.magnitude
      ∧ l.magnitude < (10 : Rat) ^ (l.exponent + (digits l.coefficient).length) := by
  have hpow : (10 : Rat) ^ (l.exponent + (digits l.coefficient).length)
      = ((10 ^ (digits l.coefficient).length : Nat) : Rat) * (10 : Rat) ^ l.exponent := by
    rw [Int.add_comm, Rat.zpow_add (by decide), ten_zpow_natCast]
  constructor
  · have hle : ((10 ^ (digits l.coefficient).length : Nat) : Rat) ≤ 10 * (l.coefficient : Rat) := by
      exact_mod_cast ten_pow_length_digits_le h
    -- The bound on the coefficient, both sides scaled by the exponent.
    have hmul := mul_le_mul_of_nonneg_right hle (le_of_lt (ten_zpow_pos l.exponent))
    rw [Rat.zpow_sub_one (by decide), hpow, ← div_eq_mul_inv, div_le_iff₀ (by decide)]
    calc ((10 ^ (digits l.coefficient).length : Nat) : Rat) * (10 : Rat) ^ l.exponent
        ≤ 10 * (l.coefficient : Rat) * (10 : Rat) ^ l.exponent := hmul
      _ = l.magnitude * 10 := by
        show _ = (l.coefficient : Rat) * (10 : Rat) ^ l.exponent * 10
        ring
  · rw [hpow]
    exact mul_lt_mul_of_pos_right (by exact_mod_cast lt_ten_pow_length_digits l.coefficient)
      (ten_zpow_pos l.exponent)

/-- **A literal is read as the nearest double.**  Where the exponent decides alone, it decides
as the number would. -/
theorem toFloat?_eq_nearest? (l : Literal) :
    l.toFloat? = Binary64.nearest? l.negative l.magnitude := by
  have hten : ∀ {a b : Int}, a ≤ b → (10 : Rat) ^ a ≤ (10 : Rat) ^ b := by
    intro a b h
    exact (zpow_le_zpow_iff_right₀ (by decide : (1 : Rat) < 10)).mpr h
  unfold toFloat?
  simp only
  by_cases hzero : l.coefficient = 0
  · have hmagnitude : l.magnitude = 0 := by
      unfold magnitude Decimal.value
      simp only [hzero, Nat.cast_zero]
      exact zero_mul _
    rw [if_pos (Or.inl hzero), hmagnitude]
  · obtain ⟨hlow, hhigh⟩ := magnitude_bounds hzero
    by_cases htiny : l.exponent + (digits l.coefficient).length < -400
    · -- Below `10 ^ (-400)` there is no double but zero.
      rw [if_pos (Or.inr htiny)]
      refine (Binary64.nearest?_of_lt_tiny ?_ ?_ l.negative).symm
      · exact le_trans (le_of_lt (ten_zpow_pos _)) hlow
      · have hinv : (10 : Rat) ^ (-400 : Int) < (2 : Rat) ^ (-1076 : Int) := by
          rw [Rat.zpow_neg, Rat.zpow_neg]
          exact inv_strictAnti₀ (two_zpow_pos _) two_pow_lt_ten_pow
        exact lt_trans (lt_of_lt_of_le hhigh (hten (le_of_lt htiny))) hinv
    · rw [if_neg (by simp only [hzero, htiny, or_self, not_false_eq_true])]
      by_cases hhuge : 400 < l.exponent + (digits l.coefficient).length
      · -- From `10 ^ 400` on every double has overflowed.
        rw [if_pos hhuge]
        refine (Binary64.nearest?_of_huge ?_ l.negative).symm
        have htwo : (2 : Rat) ^ (1025 : Int) ≤ (2 : Rat) ^ (1076 : Int) :=
          (zpow_le_zpow_iff_right₀ (by decide : (1 : Rat) < 2)).mpr (by decide)
        calc (2 : Rat) ^ (1025 : Int) ≤ (10 : Rat) ^ (400 : Int) :=
              le_trans htwo (le_of_lt two_pow_lt_ten_pow)
          _ ≤ (10 : Rat) ^ (l.exponent + (digits l.coefficient).length - 1) := hten (by omega)
          _ ≤ l.magnitude := hlow
      · rw [if_neg hhuge]
        rfl

/-! ## §2. Spellings. -/

/-- The parts of a number text. -/
structure Spelling where
  negative : Bool
  /-- The digits before the point. -/
  whole : List Char
  /-- The digits after the point; without any there is no point. -/
  fraction : List Char
  exponent : Option Int

namespace Spelling

/-- A point and digits after it, if there are any. -/
def fractionChars : List Char → List Char
  | [] => []
  | c :: cs => '.' :: c :: cs

/-- An exponent with its sign, if there is one. -/
def exponentChars : Option Int → List Char
  | none => []
  | some e => 'e' :: (if e < 0 then '-' else '+') :: digits e.natAbs

/-- The text of a spelling. -/
def chars (p : Spelling) : List Char :=
  (if p.negative then ['-'] else [])
    ++ (p.whole ++ (fractionChars p.fraction ++ exponentChars p.exponent))

/-- What a spelling denotes. -/
def literal (p : Spelling) : Literal where
  negative := p.negative
  coefficient := ofDigits (p.whole ++ p.fraction)
  exponent := p.exponent.getD 0 - p.fraction.length
  integral := p.fraction.isEmpty && p.exponent.isNone

/-- The parts are digits, and only a single zero begins with a zero. -/
structure Proper (p : Spelling) : Prop where
  whole : ∀ c ∈ p.whole, isDigit c = true
  lead : p.whole = ['0'] ∨ ∃ c cs, p.whole = c :: cs ∧ c ≠ '0'
  fraction : ∀ c ∈ p.fraction, isDigit c = true

end Spelling

/-- A text that does not go on with a digit. -/
def DigitsEnd : List Char → Prop
  | [] => True
  | c :: _ => isDigit c = false

/-- A text in which a number has come to its end. -/
def Ends : List Char → Prop
  | [] => True
  | c :: _ => isDigit c = false ∧ c ≠ '.' ∧ c ≠ 'e' ∧ c ≠ 'E'

theorem Ends.digitsEnd {rest : List Char} (h : Ends rest) : DigitsEnd rest := by
  cases rest with
  | nil => trivial
  | cons c cs => exact h.1

/-- Digits are taken up to where they end. -/
theorem span_digits {ds rest : List Char} (hds : ∀ c ∈ ds, isDigit c = true)
    (hrest : DigitsEnd rest) :
    (ds ++ rest).takeWhile isDigit = ds ∧ (ds ++ rest).dropWhile isDigit = rest := by
  rw [List.takeWhile_append_of_pos hds, List.dropWhile_append_of_pos hds]
  cases rest with
  | nil => exact ⟨List.append_nil ds, rfl⟩
  | cons c cs =>
    have hc : ¬ isDigit c = true := by simp [show isDigit c = false from hrest]
    rw [List.takeWhile_cons_of_neg hc, List.dropWhile_cons_of_neg hc]
    exact ⟨List.append_nil ds, rfl⟩

/-- Digits are neither signs nor points. -/
theorem ne_of_isDigit {c d : Char} (hc : isDigit c = true) (hd : isDigit d = false) : c ≠ d := by
  intro h
  rw [h, hd] at hc
  cases hc

/-! ## §3. Reading a spelling. -/

theorem readSign_chars (plus negative : Bool) {rest : List Char}
    (hrest : ∃ c cs, rest = c :: cs ∧ isDigit c = true) :
    readSign plus ((if negative then ['-'] else []) ++ rest) = (negative, rest) := by
  obtain ⟨c, cs, rfl, hc⟩ := hrest
  have hminus : c ≠ '-' := ne_of_isDigit hc (by decide)
  have hplus : c ≠ '+' := ne_of_isDigit hc (by decide)
  cases negative with
  | true => rfl
  | false => simp [readSign, hminus, hplus]

theorem readWhole_append {ds rest : List Char} (hds : ∀ c ∈ ds, isDigit c = true)
    (hlead : ds = ['0'] ∨ ∃ c cs, ds = c :: cs ∧ c ≠ '0') (hrest : DigitsEnd rest) :
    readWhole (ds ++ rest) = some (ds, rest) := by
  rcases hlead with rfl | ⟨c, cs, rfl, hc⟩
  · rfl
  · obtain ⟨htake, hdrop⟩ := span_digits hds hrest
    -- The rule for a single zero does not apply, because the row begins with another digit.
    unfold readWhole
    split
    · next h => exact absurd (List.cons.inj h).1 hc
    · rw [htake, hdrop]
      rfl

theorem readFraction_append {ds rest : List Char} (hds : ∀ c ∈ ds, isDigit c = true)
    (hrest : DigitsEnd rest) (hpoint : rest.head? ≠ some '.') :
    readFraction (Spelling.fractionChars ds ++ rest) = some (ds, rest) := by
  cases ds with
  | nil =>
    show readFraction rest = some ([], rest)
    unfold readFraction
    split
    · exact absurd rfl hpoint
    · rfl
  | cons d ds =>
    obtain ⟨htake, hdrop⟩ := span_digits hds hrest
    show (if ((d :: ds ++ rest).takeWhile isDigit).isEmpty then none
      else some ((d :: ds ++ rest).takeWhile isDigit, (d :: ds ++ rest).dropWhile isDigit)) = _
    rw [htake, hdrop]
    rfl

theorem readExponent_append (exponent : Option Int) {rest : List Char} (hrest : Ends rest) :
    readExponent (Spelling.exponentChars exponent ++ rest) = some (exponent, rest) := by
  cases exponent with
  | none =>
    cases rest with
    | nil => rfl
    | cons c cs =>
      obtain ⟨-, -, hlower, hupper⟩ := hrest
      show (if c = 'e' ∨ c = 'E' then _ else some (none, c :: cs)) = _
      rw [if_neg (by simp [hlower, hupper])]
  | some e =>
    -- The sign is always written, so the cases are those of the writer.
    obtain ⟨htake, hdrop⟩ := span_digits (isDigit_of_mem_digits e.natAbs) hrest.digitsEnd
    have hnonempty : (digits e.natAbs).isEmpty = false := by
      simpa using digits_ne_nil e.natAbs
    by_cases he : e < 0
    · have hsign : readSign true ('-' :: (digits e.natAbs ++ rest))
          = (true, digits e.natAbs ++ rest) := rfl
      have hvalue : -((e.natAbs : Nat) : Int) = e := by omega
      simp only [Spelling.exponentChars, he, if_true, List.cons_append, readExponent, hsign, htake,
        hdrop, hnonempty, true_or, Bool.false_eq_true, if_false, ofDigits_digits, hvalue]
    · have hsign : readSign true ('+' :: (digits e.natAbs ++ rest))
          = (false, digits e.natAbs ++ rest) := rfl
      have hvalue : ((e.natAbs : Nat) : Int) = e := by omega
      simp only [Spelling.exponentChars, he, if_false, List.cons_append, readExponent, hsign, htake,
        hdrop, hnonempty, true_or, if_true, Bool.false_eq_true, ofDigits_digits, hvalue]

/-- **A spelling is read as what it denotes**, and reading stops where the number ends. -/
theorem read_chars {p : Spelling} (hp : p.Proper) {rest : List Char} (hrest : Ends rest) :
    read (p.chars ++ rest) = some (p.literal, rest) := by
  -- What follows the digits before the point is no digit, and what follows those after it is
  -- neither a digit nor a point.
  have hexponent : DigitsEnd (Spelling.exponentChars p.exponent ++ rest)
      ∧ (Spelling.exponentChars p.exponent ++ rest).head? ≠ some '.' := by
    cases p.exponent with
    | none =>
      refine ⟨hrest.digitsEnd, ?_⟩
      cases rest with
      | nil => exact nofun
      | cons c cs => exact fun h => hrest.2.1 (Option.some.inj h)
    | some e =>
      refine ⟨(by decide : isDigit 'e' = false), ?_⟩
      intro h
      exact absurd (Option.some.inj h) (by decide)
  have hfraction : DigitsEnd (Spelling.fractionChars p.fraction
      ++ (Spelling.exponentChars p.exponent ++ rest)) := by
    cases p.fraction with
    | nil => exact hexponent.1
    | cons c cs => exact (by decide : isDigit '.' = false)
  have hfirst : ∃ c cs, p.whole ++ (Spelling.fractionChars p.fraction
      ++ (Spelling.exponentChars p.exponent ++ rest)) = c :: cs ∧ isDigit c = true := by
    rcases hp.lead with h | ⟨c, cs, h, -⟩
    · exact ⟨'0', _, by rw [h]; rfl, by decide⟩
    · exact ⟨c, _, by rw [h]; rfl, hp.whole c (by rw [h]; exact .head _)⟩
  have happend : p.chars ++ rest = (if p.negative then ['-'] else [])
      ++ (p.whole ++ (Spelling.fractionChars p.fraction
        ++ (Spelling.exponentChars p.exponent ++ rest))) := by
    simp only [Spelling.chars, List.append_assoc]
  unfold read
  simp only [happend, readSign_chars false p.negative hfirst,
    readWhole_append hp.whole hp.lead hfraction,
    readFraction_append hp.fraction hexponent.1 hexponent.2,
    readExponent_append p.exponent hrest, Option.bind_eq_bind, Option.bind_some]
  rfl

/-- A character with which a number begins. -/
def Begins (c : Char) : Prop := c = '-' ∨ isDigit c = true

theorem Spelling.Proper.exists_cons {p : Spelling} (hp : p.Proper) :
    ∃ c cs, p.chars = c :: cs ∧ Begins c := by
  obtain ⟨c, cs, hwhole⟩ : ∃ c cs, p.whole = c :: cs := by
    rcases hp.lead with h | ⟨c, cs, h, -⟩
    · exact ⟨'0', [], h⟩
    · exact ⟨c, cs, h⟩
  unfold Spelling.chars
  cases p.negative with
  | true => exact ⟨'-', _, rfl, Or.inl rfl⟩
  | false =>
    refine ⟨c, _, by rw [hwhole]; rfl, Or.inr (hp.whole c ?_)⟩
    rw [hwhole]
    exact .head _

/-! ## §4. Integers. -/

/-- The spelling of an integer. -/
def Spelling.ofInt (n : Int) : Spelling := ⟨decide (n < 0), digits n.natAbs, [], none⟩

theorem lead_digits (n : Nat) : digits n = ['0'] ∨ ∃ c cs, digits n = c :: cs ∧ c ≠ '0' := by
  by_cases hn : n = 0
  · left
    rw [hn, digits_zero]
  · right
    obtain ⟨c, cs, hcs, -, hc⟩ := digits_eq_cons hn
    exact ⟨c, cs, hcs, hc⟩

theorem Spelling.proper_ofInt (n : Int) : (Spelling.ofInt n).Proper where
  whole := isDigit_of_mem_digits n.natAbs
  lead := lead_digits n.natAbs
  fraction := nofun

theorem Spelling.chars_ofInt (n : Int) : (Spelling.ofInt n).chars = intDigits n := by
  unfold intDigits
  by_cases hn : n < 0
  · simp [Spelling.chars, Spelling.ofInt, hn, fractionChars, exponentChars]
  · simp [Spelling.chars, Spelling.ofInt, hn, fractionChars, exponentChars]

theorem begins_intDigits (n : Int) : ∃ c cs, intDigits n = c :: cs ∧ Begins c := by
  rw [← Spelling.chars_ofInt]
  exact (Spelling.proper_ofInt n).exists_cons

/-- An integer in the range of 64 bits, signed or unsigned, is read as it was written. -/
theorem readInt {n : Int} (hlow : -9223372036854775808 ≤ n) (hhigh : n < 18446744073709551616)
    {rest : List Char} (hrest : Ends rest) :
    (read (intDigits n ++ rest)).bind (fun (l, rest) => l.toJson?.map fun j => (j, rest))
      = some (.int n, rest) := by
  obtain ⟨l, hl⟩ : ∃ l, l = (Spelling.ofInt n).literal := ⟨_, rfl⟩
  have htoInt : l.toInt = n := by
    rw [hl]
    unfold toInt Spelling.literal Spelling.ofInt
    simp only [List.append_nil, ofDigits_digits]
    by_cases hn : n < 0
    · simp only [hn, decide_true, if_true]
      omega
    · simp only [hn, decide_false, Bool.false_eq_true, if_false]
      omega
  have hisInt : l.isInt = true := by
    have hintegral : l.integral = true := by rw [hl]; rfl
    -- The digits of a negative integer are not those of zero.
    have hzero : (l.negative && l.coefficient == 0) = false := by
      rw [hl]
      simp only [Spelling.literal, Spelling.ofInt, List.append_nil, ofDigits_digits]
      by_cases hn : n < 0
      · have hne : n.natAbs ≠ 0 := by omega
        simp [hne]
      · simp [hn]
    unfold isInt
    rw [htoInt, hintegral, hzero]
    simp [hlow, hhigh]
  rw [← Spelling.chars_ofInt, read_chars (Spelling.proper_ofInt n) hrest, Option.bind_some, ← hl]
  simp only [toJson?, hisInt, if_true, htoInt, Option.map_some]

/-! ## §5. Doubles. -/

/-- A text, to be put after the sign, that spells a decimal and is not that of an integer. -/
structure Spelling.Spells (p : Spelling) (text : List Char) (d : Decimal) : Prop where
  chars : p.chars = (if p.negative then ['-'] else []) ++ text
  proper : p.Proper
  magnitude : p.literal.magnitude = d.value
  integral : p.literal.integral = false

/-- A row of digits that can be laid out as a decimal with the given exponent: only zero begins
with a zero, and then it is a single one and counts units. -/
structure Leads (ds : List Char) (exponent : Int) : Prop where
  digits : ∀ c ∈ ds, isDigit c = true
  lead : ds = ['0'] ∧ exponent = 0 ∨ ∃ c cs, ds = c :: cs ∧ c ≠ '0'

section

variable {ds : List Char} {exponent : Int} (h : Leads ds exponent) (negative : Bool)

include h

/-- Zeros and `.0` after the digits. -/
theorem spells_whole (hexponent : 0 ≤ exponent) :
    Spelling.Spells ⟨negative, ds ++ List.replicate exponent.toNat '0', ['0'], none⟩
      (ds ++ List.replicate exponent.toNat '0' ++ ['.', '0']) ⟨ofDigits ds, exponent⟩ where
  chars := rfl
  proper := by
    refine ⟨?_, ?_, isDigit_of_mem_replicate (n := 1)⟩
    · intro c hc
      rcases List.mem_append.mp hc with hc | hc
      · exact h.digits c hc
      · exact isDigit_of_mem_replicate c hc
    · rcases h.lead with ⟨rfl, rfl⟩ | ⟨c, cs, rfl, hc⟩
      · exact Or.inl rfl
      · exact Or.inr ⟨c, _, rfl, hc⟩
  magnitude := by
    obtain ⟨n, rfl⟩ : ∃ n : Nat, exponent = n := ⟨exponent.toNat, by omega⟩
    have hten : (10 : Rat) ^ (-1 : Int) * 10 = 1 := by norm_num
    have hrow : ofDigits (ds ++ List.replicate n '0' ++ ['0']) = ofDigits ds * 10 ^ n * 10 := by
      rw [List.append_assoc, ofDigits_append, ← List.replicate_succ', ofDigits_replicate_zero,
        List.length_replicate, pow_succ]
      ring
    show (ofDigits (ds ++ List.replicate n '0' ++ ['0']) : Rat) * (10 : Rat) ^ (-1 : Int)
      = (ofDigits ds : Rat) * (10 : Rat) ^ (n : Int)
    rw [hrow, ten_zpow_natCast]
    push_cast
    rw [mul_assoc, mul_comm (10 : Rat), hten, mul_one]
  integral := rfl

/-- The point between the digits. -/
theorem spells_inside (hexponent : exponent < 0) (hpoint : 0 < exponent + ds.length) :
    Spelling.Spells ⟨negative, ds.take (exponent + ds.length).toNat,
        ds.drop (exponent + ds.length).toNat, none⟩
      (ds.take (exponent + ds.length).toNat ++ '.' :: ds.drop (exponent + ds.length).toNat)
      ⟨ofDigits ds, exponent⟩ := by
  obtain ⟨k, hk⟩ : ∃ k : Nat, exponent + ds.length = k := ⟨_, (Int.toNat_of_nonneg (by omega)).symm⟩
  rw [hk, Int.toNat_natCast]
  have hfraction : ds.drop k ≠ [] := by
    rw [ne_eq, List.drop_eq_nil_iff]
    omega
  constructor
  · obtain ⟨c, cs, hc⟩ := List.exists_cons_of_ne_nil hfraction
    simp only [Spelling.chars, hc, Spelling.fractionChars, Spelling.exponentChars, List.append_nil]
  · refine ⟨fun c hc => h.digits c (List.mem_of_mem_take hc), ?_,
      fun c hc => h.digits c (List.mem_of_mem_drop hc)⟩
    rcases h.lead with ⟨-, hzero⟩ | ⟨c, cs, rfl, hc⟩
    · omega
    · obtain ⟨m, rfl⟩ : ∃ m, k = m + 1 := ⟨k - 1, by omega⟩
      exact Or.inr ⟨c, _, rfl, hc⟩
  · have hlength : (0 : Int) - ((ds.drop k).length : Nat) = exponent := by
      rw [List.length_drop]
      omega
    show Decimal.value ⟨ofDigits (ds.take k ++ ds.drop k), 0 - ((ds.drop k).length : Nat)⟩ = _
    rw [List.take_append_drop, hlength]
  · show ((ds.drop k).isEmpty && true) = false
    simpa using hfraction

/-- Zeros between the point and the digits. -/
theorem spells_small (hpoint : exponent + ds.length ≤ 0) :
    Spelling.Spells ⟨negative, ['0'],
        List.replicate (-(exponent + ds.length)).toNat '0' ++ ds, none⟩
      ('0' :: '.' :: (List.replicate (-(exponent + ds.length)).toNat '0' ++ ds))
      ⟨ofDigits ds, exponent⟩ := by
  obtain ⟨k, hk⟩ : ∃ k : Nat, -(exponent + ds.length) = k :=
    ⟨_, (Int.toNat_of_nonneg (by omega)).symm⟩
  rw [hk, Int.toNat_natCast]
  have hfraction : List.replicate k '0' ++ ds ≠ [] := by
    rcases h.lead with ⟨rfl, -⟩ | ⟨c, cs, rfl, -⟩
    · simp
    · simp
  constructor
  · obtain ⟨c, cs, hc⟩ := List.exists_cons_of_ne_nil hfraction
    simp only [Spelling.chars, hc, Spelling.fractionChars, Spelling.exponentChars, List.append_nil,
      List.singleton_append]
  · refine ⟨isDigit_of_mem_replicate (n := 1), Or.inl rfl, ?_⟩
    intro c hc
    rcases List.mem_append.mp hc with hc | hc
    · exact isDigit_of_mem_replicate c hc
    · exact h.digits c hc
  · have hlength : (0 : Int) - ((List.replicate k '0' ++ ds).length : Nat) = exponent := by
      rw [List.length_append, List.length_replicate]
      omega
    show Decimal.value ⟨ofDigits (List.replicate (0 + 1) '0' ++ (List.replicate k '0' ++ ds)),
      0 - ((List.replicate k '0' ++ ds).length : Nat)⟩ = _
    rw [ofDigits_zeros_append, ofDigits_zeros_append, hlength]
  · show ((List.replicate k '0' ++ ds).isEmpty && true) = false
    simpa using hfraction

/-- The first digit, the others after the point, and an exponent. -/
theorem spells_scientific :
    Spelling.Spells ⟨negative, ds.take 1, ds.drop 1, some (exponent + ds.length - 1)⟩
      (FloatLayout.scientific ds (exponent + ds.length - 1)) ⟨ofDigits ds, exponent⟩ := by
  obtain ⟨c, cs, rfl⟩ : ∃ c cs, ds = c :: cs := by
    rcases h.lead with ⟨rfl, -⟩ | ⟨c, cs, rfl, -⟩
    · exact ⟨'0', [], rfl⟩
    · exact ⟨c, cs, rfl⟩
  constructor
  · cases cs <;> rfl
  · refine ⟨fun d hd => h.digits d (List.mem_of_mem_take hd), ?_,
      fun d hd => h.digits d (List.mem_of_mem_drop hd)⟩
    rcases h.lead with ⟨hzero, -⟩ | ⟨d, ds, hd, hne⟩
    · exact Or.inl (by rw [hzero]; rfl)
    · exact Or.inr ⟨d, [], by rw [hd]; rfl, hne⟩
  · have hexponent : exponent + ((c :: cs).length : Nat) - 1 - (cs.length : Nat) = exponent := by
      rw [List.length_cons]
      omega
    show Decimal.value ⟨ofDigits (c :: cs),
      exponent + ((c :: cs).length : Nat) - 1 - (cs.length : Nat)⟩ = _
    rw [hexponent]
  · show (cs.isEmpty && false) = false
    exact Bool.and_false _

/-- Whatever the layout, the text spells the decimal. -/
theorem exists_spells :
    ∃ p : Spelling, p.negative = negative ∧ p.Spells
      (if floatLayout.isPositional (exponent + ds.length - 1) = true then
        floatLayout.positional ds exponent
      else FloatLayout.scientific ds (exponent + ds.length - 1)) ⟨ofDigits ds, exponent⟩ := by
  split
  · by_cases hexponent : 0 ≤ exponent
    · have htext : floatLayout.positional ds exponent
          = ds ++ List.replicate exponent.toNat '0' ++ ['.', '0'] := by
        unfold FloatLayout.positional
        rw [if_pos hexponent]
        rfl
      rw [htext]
      exact ⟨_, rfl, spells_whole h negative hexponent⟩
    · by_cases hpoint : 0 < exponent + ds.length
      · have htext : floatLayout.positional ds exponent = ds.take (exponent + ds.length).toNat
            ++ '.' :: ds.drop (exponent + ds.length).toNat := by
          unfold FloatLayout.positional
          rw [if_neg hexponent, if_pos hpoint]
        rw [htext]
        exact ⟨_, rfl, spells_inside h negative (by omega) hpoint⟩
      · have htext : floatLayout.positional ds exponent = '0' :: '.' ::
            (List.replicate (-(exponent + ds.length)).toNat '0' ++ ds) := by
          unfold FloatLayout.positional
          rw [if_neg hexponent, if_neg hpoint]
        rw [htext]
        exact ⟨_, rfl, spells_small h negative (by omega)⟩
  · exact ⟨_, rfl, spells_scientific h negative⟩

end

/-- The digits of the shortest decimal can be laid out. -/
theorem leads_shortest (x : Binary64) :
    Leads (digits x.shortest.coefficient) x.shortest.exponent where
  digits := isDigit_of_mem_digits _
  lead := by
    by_cases hzero : x.shortest.coefficient = 0
    · left
      rw [hzero, digits_zero]
      exact ⟨rfl, Binary64.exponent_shortest_of_coefficient_eq_zero hzero⟩
    · right
      obtain ⟨c, cs, hcs, -, hc⟩ := digits_eq_cons hzero
      exact ⟨c, cs, hcs, hc⟩

/-- The text of a double is the spelling of its shortest decimal. -/
theorem exists_spelling (x : Binary64) : ∃ p : Spelling, p.negative = x.negative
    ∧ p.chars = floatLayout.chars x ∧ p.Proper ∧ p.literal.magnitude = x.shortest.value
    ∧ p.literal.integral = false := by
  obtain ⟨p, hnegative, hp⟩ := exists_spells (leads_shortest x) x.negative
  refine ⟨p, hnegative, ?_, hp.proper, ?_, hp.integral⟩
  · rw [hp.chars, hnegative]
    rfl
  · rw [hp.magnitude, ofDigits_digits]

theorem begins_floatLayout (x : Binary64) :
    ∃ c cs, floatLayout.chars x = c :: cs ∧ Begins c := by
  obtain ⟨p, -, hchars, hproper, -⟩ := exists_spelling x
  rw [← hchars]
  exact hproper.exists_cons

/-- **A finite double is read as it was written**, bit for bit. -/
theorem readFloat {x : Binary64} (hx : x.isFinite = true) {rest : List Char} (hrest : Ends rest) :
    (read (floatLayout.chars x ++ rest)).bind
        (fun (l, rest) => l.toJson?.map fun j => (j, rest))
      = some (.float x, rest) := by
  obtain ⟨p, hnegative, hchars, hproper, hmagnitude, hintegral⟩ := exists_spelling x
  have htoFloat : p.literal.toFloat? = some x := by
    have hback := Binary64.readsBack_iff.mp (Binary64.readsBack_shortest hx)
    rw [toFloat?_eq_nearest?, hmagnitude, ← hback, ← hnegative]
    rfl
  have hisInt : p.literal.isInt = false := by
    unfold isInt
    rw [hintegral]
    rfl
  rw [← hchars, read_chars hproper hrest, Option.bind_some]
  simp only [toJson?, hisInt, Bool.false_eq_true, if_false, htoFloat, Option.map_some]

end Literal

end Json

end PolicyLookup
