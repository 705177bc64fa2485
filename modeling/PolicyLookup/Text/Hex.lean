/-
  PolicyLookup.Text.Hex — numbers and bytes in base sixteen.

  Digits are lower-case.  `fixed` pads to a width, `lower` does not.
-/

namespace PolicyLookup.Text.Hex

/-- The character of a digit below sixteen, in lower case. -/
def digit (d : Nat) : Char := if d < 10 then Char.ofNat (48 + d) else Char.ofNat (87 + d)

/-- The value of a hexadecimal digit in either case. -/
def digit? (c : Char) : Option Nat :=
  let n := c.toNat
  if 48 ≤ n ∧ n ≤ 57 then some (n - 48)
  else if 97 ≤ n ∧ n ≤ 102 then some (n - 87)
  else if 65 ≤ n ∧ n ≤ 70 then some (n - 55)
  else none

/-- The last `width` hexadecimal digits of a number. -/
def fixed : (width : Nat) → Nat → List Char
  | 0, _ => []
  | width + 1, n => fixed width (n / 16) ++ [digit (n % 16)]

/-- The hexadecimal digits of a number, without padding. -/
def lower (n : Nat) : List Char :=
  if n < 16 then [digit n] else lower (n / 16) ++ [digit (n % 16)]
termination_by n
decreasing_by omega

/-- Two digits for each byte. -/
def ofBytes (bytes : List UInt8) : List Char := bytes.flatMap fun b => fixed 2 b.toNat

/-- The number that a row of hexadecimal digits denotes. -/
def number? (cs : List Char) : Option Nat :=
  cs.foldl (fun n c => n.bind fun n => (digit? c).map (16 * n + ·)) (some 0)

end PolicyLookup.Text.Hex
