/-
  PolicyLookup.Json.Writer — the text of a JSON document.

  `compact` writes no blanks.  `pretty` puts every element of a container on a line of its
  own, indented by two spaces for each container around it; empty containers stay closed.
-/

import PolicyLookup.Json.Basic
import PolicyLookup.Number.Layout
import PolicyLookup.Text.Hex

namespace PolicyLookup

namespace Json

open Number

/-- Doubles in JSON: positional while the first digit counts `10^-5` to `10^15`, and always
with a point or an exponent, so that no double is written like an integer. -/
def floatLayout : FloatLayout where
  isPositional := fun e => decide (-5 ≤ e) && decide (e ≤ 15)
  keepsPoint := true

/-- How one character is written between quotes. -/
def escape (c : Char) : List Char :=
  if c = '"' then ['\\', '"']
  else if c = '\\' then ['\\', '\\']
  else if c = '\x08' then ['\\', 'b']
  else if c = '\x0c' then ['\\', 'f']
  else if c = '\n' then ['\\', 'n']
  else if c = '\r' then ['\\', 'r']
  else if c = '\t' then ['\\', 't']
  else if c.toNat < 32 then '\\' :: 'u' :: Text.Hex.fixed 4 c.toNat
  else [c]

/-- A string between quotes. -/
def quote (s : String) : List Char := '"' :: (s.toList.flatMap escape ++ ['"'])

/-- A double, or `null` for one that is not finite. -/
def floatChars (x : Binary64) : List Char :=
  if x.isFinite then floatLayout.chars x else ['n', 'u', 'l', 'l']

/-- The characters of a truth value. -/
def boolChars (b : Bool) : List Char :=
  if b then ['t', 'r', 'u', 'e'] else ['f', 'a', 'l', 's', 'e']

/-! ## §1. Without blanks. -/

mutual

/-- The characters of a document, without blanks. -/
def chars : Json → List Char
  | .null => ['n', 'u', 'l', 'l']
  | .bool b => boolChars b
  | .int n => intDigits n
  | .float x => floatChars x
  | .str s => quote s
  | .arr items => '[' :: (itemsChars items ++ [']'])
  | .obj members => '\x7b' :: (membersChars members ++ ['\x7d'])

/-- The elements of an array, separated by commas. -/
def itemsChars : List Json → List Char
  | [] => []
  | [j] => chars j
  | j :: rest => chars j ++ ',' :: itemsChars rest

/-- The members of an object, separated by commas. -/
def membersChars : List (String × Json) → List Char
  | [] => []
  | [(k, j)] => quote k ++ ':' :: chars j
  | (k, j) :: rest => quote k ++ ':' :: (chars j ++ ',' :: membersChars rest)

end

/-- The text of a document without blanks. -/
def compact (j : Json) : String := String.ofList j.chars

/-! ## §2. Over several lines. -/

/-- A new line, indented to the given depth. -/
def newline (depth : Nat) : List Char := '\n' :: List.replicate (2 * depth) ' '

mutual

/-- The characters of a document that starts at the given depth. -/
def prettyChars (depth : Nat) : Json → List Char
  | .arr [] => ['[', ']']
  | .obj [] => ['\x7b', '\x7d']
  | .arr items => '[' :: (prettyItems (depth + 1) items ++ newline depth ++ [']'])
  | .obj members => '\x7b' :: (prettyMembers (depth + 1) members ++ newline depth ++ ['\x7d'])
  | .null => ['n', 'u', 'l', 'l']
  | .bool b => boolChars b
  | .int n => intDigits n
  | .float x => floatChars x
  | .str s => quote s

/-- The elements of an array, each on a line of its own. -/
def prettyItems (depth : Nat) : List Json → List Char
  | [] => []
  | [j] => newline depth ++ prettyChars depth j
  | j :: rest => newline depth ++ prettyChars depth j ++ ',' :: prettyItems depth rest

/-- The members of an object, each on a line of its own. -/
def prettyMembers (depth : Nat) : List (String × Json) → List Char
  | [] => []
  | [(k, j)] => newline depth ++ quote k ++ ':' :: ' ' :: prettyChars depth j
  | (k, j) :: rest =>
    newline depth ++ quote k
      ++ ':' :: ' ' :: (prettyChars depth j ++ ',' :: prettyMembers depth rest)

end

/-- The text of a document over several lines. -/
def pretty (j : Json) : String := String.ofList (j.prettyChars 0)

end Json

end PolicyLookup
