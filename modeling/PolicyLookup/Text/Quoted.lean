/-
  PolicyLookup.Text.Quoted — texts shown between quotes, every character recognisable.

  Quotes, backslashes and four control characters have short escapes; a character that is
  invisible, or that would combine with its neighbour, is written by its code.
-/

import PolicyLookup.Text.Hex
import PolicyLookup.Text.Unprintable

namespace PolicyLookup.Text.Quoted

/-- How one character is shown. -/
def escape (c : Char) : List Char :=
  if c = '\x00' then ['\\', '0']
  else if c = '\t' then ['\\', 't']
  else if c = '\r' then ['\\', 'r']
  else if c = '\n' then ['\\', 'n']
  else if c = '"' then ['\\', '"']
  else if c = '\\' then ['\\', '\\']
  else if isUnprintable c then '\\' :: 'u' :: '\x7b' :: (Hex.lower c.toNat ++ ['\x7d'])
  else [c]

/-- A text between quotes. -/
def quote (s : String) : String := String.ofList ('"' :: (s.toList.flatMap escape ++ ['"']))

end PolicyLookup.Text.Quoted
