/-
  PolicyLookup.Proofs.Number.Digits — rows of digits as numbers.

  A row of digits is a number in base ten, so that joining two rows shifts the first one by the
  length of the second.  The digits of a number are as many as its size asks for, the first of
  them is zero only for the number zero, and together they are the usual text of the number.  Rows
  of one length are in the order of their numbers.
-/

import Mathlib.Tactic.Ring
import PolicyLookup.Number.Digits

namespace PolicyLookup

namespace Number

/-! ## §1. Joining rows. -/

theorem ofDigits_append (as bs : List Char) :
    ofDigits (as ++ bs) = ofDigits as * 10 ^ bs.length + ofDigits bs := by
  -- What has been read before is shifted by the digits to come.
  have key : ∀ (cs : List Char) (n : Nat),
      cs.foldl (fun n c => 10 * n + (digit? c).getD 0) n = n * 10 ^ cs.length + ofDigits cs := by
    intro cs
    induction cs with
    | nil =>
      intro n
      simp [ofDigits]
    | cons c cs ih =>
      intro n
      unfold ofDigits
      rw [List.foldl_cons, List.foldl_cons, ih, ih, List.length_cons, pow_succ]
      ring
  unfold ofDigits
  rw [List.foldl_append]
  exact key bs _

theorem ofDigits_replicate_zero (n : Nat) : ofDigits (List.replicate n '0') = 0 := by
  induction n with
  | zero => rfl
  | succ n ih =>
    have hzero : ofDigits ['0'] = 0 := by decide
    rw [List.replicate_succ, ← List.singleton_append, ofDigits_append, ih, hzero, zero_mul]

theorem ofDigits_zeros_append (n : Nat) (ds : List Char) :
    ofDigits (List.replicate n '0' ++ ds) = ofDigits ds := by
  rw [ofDigits_append, ofDigits_replicate_zero, zero_mul, zero_add]

theorem isDigit_of_mem_replicate {n : Nat} : ∀ c ∈ List.replicate n '0', isDigit c = true := by
  intro c hc
  rw [List.eq_of_mem_replicate hc]
  decide

/-! ## §2. The digits of a number. -/

theorem digits_of_lt_ten {n : Nat} (h : n < 10) : digits n = [digitChar n] := by
  rw [digits, if_pos h]

theorem digits_of_ten_le {n : Nat} (h : 10 ≤ n) :
    digits n = digits (n / 10) ++ [digitChar (n % 10)] := by
  rw [digits, if_neg (by omega)]

theorem lt_ten_pow_length_digits (n : Nat) : n < 10 ^ (digits n).length := by
  induction n using Nat.strongRecOn with
  | _ n ih =>
    by_cases h : n < 10
    · rw [digits_of_lt_ten h]
      exact h
    · have hlt := ih (n / 10) (by omega)
      rw [digits_of_ten_le (by omega), List.length_append, List.length_singleton, pow_succ]
      omega

theorem ten_pow_length_digits_le {n : Nat} (hn : n ≠ 0) : 10 ^ (digits n).length ≤ 10 * n := by
  induction n using Nat.strongRecOn with
  | _ n ih =>
    by_cases h : n < 10
    · rw [digits_of_lt_ten h]
      show 10 ^ 1 ≤ 10 * n
      omega
    · have hle := ih (n / 10) (by omega) (by omega)
      rw [digits_of_ten_le (by omega), List.length_append, List.length_singleton, pow_succ]
      omega

/-- A digit that counts something is not written as zero. -/
theorem digitChar_ne_zero {d : Nat} (h : d < 10) (hd : d ≠ 0) : digitChar d ≠ '0' := by
  intro hzero
  have hdigit := digit?_digitChar h
  rw [hzero] at hdigit
  exact hd (Option.some.inj hdigit).symm

/-- The first digit of a positive number is not zero. -/
theorem digits_eq_cons {n : Nat} (hn : n ≠ 0) :
    ∃ c cs, digits n = c :: cs ∧ isDigit c = true ∧ c ≠ '0' := by
  induction n using Nat.strongRecOn with
  | _ n ih =>
    by_cases h : n < 10
    · exact ⟨digitChar n, [], digits_of_lt_ten h, isDigit_digitChar h, digitChar_ne_zero h hn⟩
    · obtain ⟨c, cs, hcs, hc⟩ := ih (n / 10) (by omega) (by omega)
      refine ⟨c, cs ++ [digitChar (n % 10)], ?_, hc⟩
      rw [digits_of_ten_le (by omega), hcs]
      rfl

theorem digits_zero : digits 0 = ['0'] := digits_of_lt_ten (by decide)

theorem digitChar_eq {d : Nat} (h : d < 10) : digitChar d = Nat.digitChar d := by
  have key : ∀ e : Fin 10, digitChar e.val = Nat.digitChar e.val := by decide
  exact key ⟨d, h⟩

theorem digits_eq_toDigits (n : Nat) : digits n = Nat.toDigits 10 n := by
  induction n using Nat.strongRecOn with
  | _ n ih =>
    rw [Nat.toDigits_eq_if (by decide)]
    by_cases h : n < 10
    · rw [digits_of_lt_ten h, if_pos h, digitChar_eq h]
    · rw [digits_of_ten_le (by omega), if_neg h, ih (n / 10) (by omega),
        digitChar_eq (Nat.mod_lt n (by decide))]

/-- **The digits of a number are its usual text.** -/
theorem ofList_digits (n : Nat) : String.ofList (digits n) = toString n := by
  rw [digits_eq_toDigits, Nat.toString_eq_ofList_toDigits]

/-- So is the text of an integer. -/
theorem ofList_intDigits (n : Int) : String.ofList (intDigits n) = toString n := by
  unfold intDigits
  cases n with
  | ofNat n =>
    rw [if_neg (by simp)]
    exact ofList_digits n
  | negSucc n =>
    rw [if_pos (by omega)]
    show String.ofList (['-'] ++ digits (n + 1)) = "-" ++ toString (n + 1)
    rw [String.ofList_append, ofList_digits]

/-! ## §3. Numerals of a given width. -/

/-- A row of so many digits that denotes the number, with zeros in front if need be. -/
structure Numeral (width n : Nat) (ds : List Char) : Prop where
  length_eq : ds.length = width
  digits : ∀ c ∈ ds, isDigit c = true
  value : ofDigits ds = n

theorem isDigit_iff {c : Char} : isDigit c = true ↔ 48 ≤ c.toNat ∧ c.toNat ≤ 57 := by
  unfold isDigit digit?
  by_cases h : 48 ≤ c.toNat ∧ c.toNat ≤ 57 <;> simp [h]

/-- A number of few digits has few digits. -/
theorem length_digits_le {width n : Nat} (hwidth : 1 ≤ width) (h : n < 10 ^ width) :
    (digits n).length ≤ width := by
  by_cases hn : n = 0
  · rw [hn, digits_zero]
    exact hwidth
  · have hle := ten_pow_length_digits_le hn
    have hlt : 10 ^ (digits n).length < 10 ^ (width + 1) := by
      rw [pow_succ]
      omega
    exact Nat.le_of_lt_succ ((Nat.pow_lt_pow_iff_right (by decide)).mp hlt)

theorem ofDigits_cons (c : Char) (cs : List Char) :
    ofDigits (c :: cs) = (digit? c).getD 0 * 10 ^ cs.length + ofDigits cs := by
  rw [← List.singleton_append, ofDigits_append]
  simp [ofDigits]

theorem getD_digit?_of_isDigit {c : Char} (h : isDigit c = true) :
    (digit? c).getD 0 = c.toNat - 48 := by
  unfold digit?
  rw [if_pos (isDigit_iff.mp h)]
  rfl

theorem ofDigits_lt {cs : List Char} (h : ∀ c ∈ cs, isDigit c = true) :
    ofDigits cs < 10 ^ cs.length := by
  induction cs with
  | nil => decide
  | cons c cs ih =>
    have hc := isDigit_iff.mp (h c (.head _))
    have hcs := ih fun d hd => h d (.tail _ hd)
    have hmul : (c.toNat - 48) * 10 ^ cs.length ≤ 9 * 10 ^ cs.length :=
      Nat.mul_le_mul_right _ (by omega)
    rw [ofDigits_cons, getD_digit?_of_isDigit (h c (.head _)), List.length_cons, pow_succ]
    omega

/-- Quotients are compared before remainders. -/
theorem mul_add_lt_mul_add_iff {k p q x y : Nat} (hx : x < k) (hy : y < k) :
    p * k + x < q * k + y ↔ p < q ∨ p = q ∧ x < y := by
  have hstep : ∀ {r s : Nat}, r < s → r * k + k ≤ s * k := by
    intro r s hrs
    rw [← Nat.succ_mul]
    exact Nat.mul_le_mul_right k hrs
  rcases Nat.lt_trichotomy p q with hlt | rfl | hgt
  · have := hstep hlt
    omega
  · omega
  · have := hstep hgt
    omega

namespace Numeral

variable {width m n : Nat} {as bs : List Char}

theorem lt (h : Numeral width n as) : n < 10 ^ width := by
  rw [← h.value, ← h.length_eq]
  exact ofDigits_lt h.digits

/-- **Numerals of one width are in the order of their numbers.** -/
theorem lt_iff (ha : Numeral width m as) (hb : Numeral width n bs) : as < bs ↔ m < n := by
  induction width generalizing m n as bs with
  | zero =>
    have hm := ha.lt
    have hn := hb.lt
    rw [List.length_eq_zero_iff.mp ha.length_eq, List.length_eq_zero_iff.mp hb.length_eq]
    simp
    omega
  | succ width ih =>
    obtain ⟨hla, hda, rfl⟩ := ha
    obtain ⟨hlb, hdb, rfl⟩ := hb
    obtain ⟨a, as, rfl⟩ := List.exists_cons_of_length_eq_add_one hla
    obtain ⟨b, bs, rfl⟩ := List.exists_cons_of_length_eq_add_one hlb
    have hlas : as.length = width := Nat.succ.inj hla
    have hlbs : bs.length = width := Nat.succ.inj hlb
    have has : Numeral width (ofDigits as) as := ⟨hlas, fun c hc => hda c (.tail _ hc), rfl⟩
    have hbs : Numeral width (ofDigits bs) bs := ⟨hlbs, fun c hc => hdb c (.tail _ hc), rfl⟩
    have hrest := ih has hbs
    have halt := has.lt
    have hblt := hbs.lt
    have ha := isDigit_iff.mp (hda a (.head _))
    have hb := isDigit_iff.mp (hdb b (.head _))
    rw [List.cons_lt_cons_iff, hrest, ofDigits_cons, ofDigits_cons, hlas, hlbs,
      getD_digit?_of_isDigit (hda a (.head _)), getD_digit?_of_isDigit (hdb b (.head _)),
      mul_add_lt_mul_add_iff halt hblt, Char.lt_def, UInt32.lt_iff_toNat_lt, ← Char.toNat_inj]
    show a.toNat < b.toNat ∨ a.toNat = b.toNat ∧ _ ↔ _
    omega

theorem eq_iff (ha : Numeral width m as) (hb : Numeral width n bs) : as = bs ↔ m = n := by
  constructor
  · intro h
    rw [← ha.value, ← hb.value, h]
  · intro h
    refine List.le_antisymm ?_ ?_
    · rw [← List.not_lt, hb.lt_iff ha]
      omega
    · rw [← List.not_lt, ha.lt_iff hb]
      omega

end Numeral

end Number

end PolicyLookup
