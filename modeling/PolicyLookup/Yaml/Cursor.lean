/-
  PolicyLookup.Yaml.Cursor — a place in a YAML text.

  A place knows the text from there on and its own line and column.  Behind the end of the text
  there is the character with code 0, which ends a text wherever it stands.
-/

namespace PolicyLookup.Yaml

/-! ## §1. Characters. -/

/-- A space or a tab. -/
def isBlank (c : Char) : Bool := c = ' ' || c = '\t'

/-- A character that ends a line. -/
def isBreak (c : Char) : Bool := c = '\n' || c = '\r'

/-- The end of the text. -/
def isEnd (c : Char) : Bool := c = '\x00'

/-- The end of a line or of the text. -/
def isLineEnd (c : Char) : Bool := isBreak c || isEnd c

/-- A blank or an end. -/
def isGap (c : Char) : Bool := isBlank c || isLineEnd c

/-- The brackets and the comma of flow nodes. -/
def isFlowMark (c : Char) : Bool := [',', '[', ']', '\x7b', '\x7d'].contains c

/-- A character of the name of an anchor. -/
def isNameChar (c : Char) : Bool := c.isAlphanum || c = '_' || c = '-'

/-! ## §2. Places. -/

/-- A place in a text. -/
structure Cursor where
  /-- The text from here on. -/
  chars : List Char
  /-- The number of characters before. -/
  index : Nat
  line : Nat
  column : Nat

namespace Cursor

/-- The beginning of a text. -/
def start (text : List Char) : Cursor := ⟨text, 0, 0, 0⟩

/-- The character here. -/
def head (c : Cursor) : Char := c.chars.headD '\x00'

/-- A character further on. -/
def peek (c : Cursor) (n : Nat) : Char := c.chars.getD n '\x00'

/-- The place after the character here. -/
def next (c : Cursor) : Cursor :=
  match c.chars with
  | [] => c
  | d :: rest =>
    if d = '\n' then ⟨rest, c.index + 1, c.line + 1, 0⟩
    else ⟨rest, c.index + 1, c.line, c.column + 1⟩

/-- The place after so many characters. -/
def skip (c : Cursor) : Nat → Cursor
  | 0 => c
  | n + 1 => c.next.skip n

/-- The place after all characters of a kind. -/
def skipWhile (p : Char → Bool) (c : Cursor) : Cursor := c.skip (c.chars.takeWhile p).length

/-- The place after a line end, which may have two characters. -/
def skipBreak (c : Cursor) : Cursor :=
  if c.head = '\r' ∧ c.peek 1 = '\n' then c.skip 2 else c.next

/-- The end of a line, from a comment at its end. -/
def skipComment (c : Cursor) : Cursor :=
  if c.head = '#' then c.skipWhile fun d => !isLineEnd d else c

/-- Whether three equal characters stand alone at the margin here. -/
def isMark (c : Cursor) (d : Char) : Bool :=
  c.column = 0 && c.head = d && c.peek 1 = d && c.peek 2 = d && isGap (c.peek 3)

/-- Whether a document begins or ends here. -/
def isDocumentMark (c : Cursor) : Bool := c.isMark '-' || c.isMark '.'

end Cursor

end PolicyLookup.Yaml
