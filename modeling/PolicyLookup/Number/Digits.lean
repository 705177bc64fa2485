/-
  PolicyLookup.Number.Digits — natural numbers written in base ten.

  Writing and reading are inverse: `ofDigits (digits n) = n`, and every
  character written is one of the ten digits.
-/

namespace PolicyLookup.Number

/-- The character of a digit below ten. -/
def digitChar (d : Nat) : Char := Char.ofNat (48 + d)

/-- The digit a character stands for, if it is one of `0` to `9`. -/
def digit? (c : Char) : Option Nat :=
  if 48 ≤ c.toNat ∧ c.toNat ≤ 57 then some (c.toNat - 48) else none

/-- Whether a character is one of `0` to `9`. -/
def isDigit (c : Char) : Bool := (digit? c).isSome

/-- The decimal digits of a number, most significant first; zero is one digit. -/
def digits (n : Nat) : List Char :=
  if n < 10 then [digitChar n] else digits (n / 10) ++ [digitChar (n % 10)]
termination_by n
decreasing_by omega

/-- The number that a row of digits denotes; characters that are no digits count as zero. -/
def ofDigits (cs : List Char) : Nat :=
  cs.foldl (fun n c => 10 * n + (digit? c).getD 0) 0

/-- The text of an integer: a minus sign if it is negative, then its digits. -/
def intDigits (i : Int) : List Char :=
  if i < 0 then '-' :: digits i.natAbs else digits i.natAbs

/-! ## §1. Writing, then reading. -/

theorem digit?_digitChar {d : Nat} (h : d < 10) : digit? (digitChar d) = some d := by
  have key : ∀ e : Fin 10, digit? (digitChar e.val) = some e.val := by decide
  exact key ⟨d, h⟩

theorem isDigit_digitChar {d : Nat} (h : d < 10) : isDigit (digitChar d) = true := by
  simp [isDigit, digit?_digitChar h]

theorem isDigit_of_mem_digits (n : Nat) : ∀ c ∈ digits n, isDigit c = true := by
  induction n using Nat.strongRecOn with
  | _ n ih =>
    intro c hc
    rw [digits] at hc
    split at hc
    · next h =>
      simp only [List.mem_singleton] at hc
      exact hc ▸ isDigit_digitChar h
    · next h =>
      rcases List.mem_append.1 hc with hc | hc
      · exact ih (n / 10) (by omega) c hc
      · simp only [List.mem_singleton] at hc
        exact hc ▸ isDigit_digitChar (Nat.mod_lt n (by decide))

theorem ofDigits_append_digit (cs : List Char) {d : Nat} (h : d < 10) :
    ofDigits (cs ++ [digitChar d]) = 10 * ofDigits cs + d := by
  simp [ofDigits, List.foldl_append, digit?_digitChar h]

theorem ofDigits_digits (n : Nat) : ofDigits (digits n) = n := by
  induction n using Nat.strongRecOn with
  | _ n ih =>
    rw [digits]
    split
    · next h => simp [ofDigits, digit?_digitChar h]
    · next h =>
      rw [ofDigits_append_digit _ (Nat.mod_lt n (by decide)), ih (n / 10) (by omega)]
      omega

theorem digits_ne_nil (n : Nat) : digits n ≠ [] := by
  rw [digits]
  split <;> simp

end PolicyLookup.Number
