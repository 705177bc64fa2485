/-
  PolicyLookup.Yaml.Scalar — the texts of scalars.

  Texts without quotes and between quotes may go over several lines: a line end is a space, and
  each empty line after it a line end.  Blocks of text keep their lines or fold them.  The fuel
  of each loop is the length of the text that is left.
-/

import PolicyLookup.Text.Hex
import PolicyLookup.Yaml.Cursor

namespace PolicyLookup.Yaml

/-! ## §1. Gaps between words. -/

/-- The blanks and line ends between two words of a text. -/
structure Gap where
  /-- The blanks before the first line end, reversed. -/
  blanks : List Char
  hasBreak : Bool
  /-- Whether the first line end does not count. -/
  escaped : Bool
  /-- How many line ends follow the first one. -/
  breaks : Nat

namespace Gap

/-- Nothing yet. -/
def empty : Gap := ⟨[], false, false, 0⟩

/-- A line end that does not count. -/
def escape : Gap := ⟨[], true, true, 0⟩

/-- What stands for a gap in a text, reversed. -/
def text (g : Gap) : List Char :=
  if g.hasBreak then
    if g.breaks = 0 ∧ !g.escaped then [' '] else List.replicate g.breaks '\n'
  else g.blanks

/-- Reads a gap to its end; a tab within the indentation is refused. -/
def read? (fuel least : Nat) (g : Gap) (c : Cursor) : Option (Gap × Cursor) :=
  match fuel with
  | 0 => some (g, c)
  | fuel + 1 =>
    if isBlank c.head then
      if g.hasBreak then
        if c.column < least ∧ c.head = '\t' then none else read? fuel least g c.next
      else read? fuel least { g with blanks := c.head :: g.blanks } c.next
    else if isBreak c.head then
      if g.hasBreak then read? fuel least { g with breaks := g.breaks + 1 } c.skipBreak
      else read? fuel least { g with blanks := [], hasBreak := true } c.skipBreak
    else some (g, c)

end Gap

/-! ## §2. Without quotes. -/

/-- The word at the start of the input. -/
def word (flow : Bool) : List Char → List Char
  | [] => []
  | d :: rest =>
    let next := rest.headD '\x00'
    if isGap d || (d = ':' && (isGap next || (flow && isFlowMark next)))
        || (flow && isFlowMark d) then []
    else d :: word flow rest

/-- The rest of a text without quotes; `acc` are its words so far, reversed, and `g` the gap
after them.  Says also whether the text ended with a line. -/
def plain? (fuel : Nat) (flow : Bool) (least : Nat) (acc : List Char) (g : Gap) (c : Cursor) :
    Option (List Char × Bool × Cursor) :=
  match fuel with
  | 0 => none
  | fuel + 1 =>
    if c.isDocumentMark || c.head = '#' then some (acc.reverse, g.hasBreak, c)
    else
      let w := word flow c.chars
      let acc := if w.isEmpty then acc else w.reverse ++ (g.text ++ acc)
      let g := if w.isEmpty then g else .empty
      let c := c.skip w.length
      if isBlank c.head || isBreak c.head then
        match g.read? c.chars.length least c with
        | none => none
        | some (g, c) =>
          if !flow && decide (c.column < least) then some (acc.reverse, g.hasBreak, c)
          else plain? fuel flow least acc g c
      else some (acc.reverse, g.hasBreak, c)

/-! ## §3. Between quotes. -/

/-- The character of an escape with one letter. -/
def unescape? : Char → Option Char
  | '0' => some '\x00'
  | 'a' => some '\x07'
  | 'b' => some '\x08'
  | 't' => some '\t'
  | '\t' => some '\t'
  | 'n' => some '\n'
  | 'v' => some '\x0b'
  | 'f' => some '\x0c'
  | 'r' => some '\r'
  | 'e' => some '\x1b'
  | ' ' => some ' '
  | '"' => some '"'
  | '\'' => some '\''
  | '/' => some '/'
  | '\\' => some '\\'
  | 'N' => some '\u0085'
  | '_' => some '\u00a0'
  | 'L' => some '\u2028'
  | 'P' => some '\u2029'
  | _ => none

/-- The number of digits of an escape by code. -/
def codeLength : Char → Nat
  | 'x' => 2
  | 'u' => 4
  | 'U' => 8
  | _ => 0

/-- The character of a code written with hexadecimal digits. -/
def codeChar? (digits : List Char) : Option Char :=
  match Text.Hex.number? digits with
  | some n => if n < 0xD800 ∨ 0xE000 ≤ n ∧ n < 0x110000 then some (Char.ofNat n) else none
  | none => none

/-- The character of the escape here, and the place after it. -/
def escape? (c : Cursor) : Option (Char × Cursor) :=
  let n := codeLength (c.peek 1)
  if n = 0 then (unescape? (c.peek 1)).map fun d => (d, c.skip 2)
  else
    let digits := (c.chars.drop 2).take n
    if digits.length < n then none
    else (codeChar? digits).map fun d => (d, c.skip (n + 2))

/-- The rest of a text between quotes; `acc` is what has been read, reversed. -/
def quoted? (fuel : Nat) (quote : Char) (acc : List Char) (c : Cursor) :
    Option (List Char × Cursor) :=
  match fuel with
  | 0 => none
  | fuel + 1 =>
    if c.isDocumentMark || isEnd c.head then none
    else if c.head = quote then
      if quote = '\'' ∧ c.peek 1 = '\'' then quoted? fuel quote ('\'' :: acc) (c.skip 2)
      else some (acc.reverse, c.next)
    else if c.head = '\\' ∧ quote = '"' then
      if isBreak (c.peek 1) then
        match Gap.escape.read? c.chars.length 0 c.next.skipBreak with
        | none => none
        | some (g, c) => quoted? fuel quote (g.text ++ acc) c
      else
        match escape? c with
        | none => none
        | some (d, c) => quoted? fuel quote (d :: acc) c
    else if isBlank c.head || isBreak c.head then
      match Gap.empty.read? c.chars.length 0 c with
      | none => none
      | some (g, c) => quoted? fuel quote (g.text ++ acc) c
    else quoted? fuel quote (c.head :: acc) c.next

/-! ## §4. Blocks of text. -/

/-- What the line that opens a block of text says about it. -/
structure BlockHeader where
  /-- Whether line ends become spaces. -/
  folded : Bool
  /-- Which line ends at the end are kept: all of them (`+`), none (`-`), or one. -/
  chomp : Char
  /-- The indentation of the block beyond its parent's; 0 if it is not given. -/
  indent : Nat

namespace BlockHeader

/-- The sign that says which line ends are kept. -/
def readChomp (h : BlockHeader) (c : Cursor) : BlockHeader × Cursor :=
  if c.head = '+' ∨ c.head = '-' then ({ h with chomp := c.head }, c.next) else (h, c)

/-- The digit that gives the indentation, which is not zero. -/
def readIndent? (h : BlockHeader) (c : Cursor) : Option (BlockHeader × Cursor) :=
  if c.head.isDigit then
    if c.head = '0' then none else some ({ h with indent := c.head.toNat - 48 }, c.next)
  else some (h, c)

/-- Reads a header from after its mark; sign and digit may come in either order. -/
def read? (folded : Bool) (c : Cursor) : Option (BlockHeader × Cursor) := do
  let (h, c) := readChomp ⟨folded, ' ', 0⟩ c
  let (h, c) ← h.readIndent? c
  let (h, c) := if h.chomp = ' ' then h.readChomp c else (h, c)
  let c := (c.skipWhile isBlank).skipComment
  if isLineEnd c.head then return (h, if isBreak c.head then c.skipBreak else c) else none

end BlockHeader

/-- The place of the next line with text in a block, the line ends before it, and the largest
column on the way.  An indentation of 0 is not known yet.  Tabs do not indent. -/
def blockBreaks? (fuel indent largest breaks : Nat) (c : Cursor) : Option (Nat × Nat × Cursor) :=
  match fuel with
  | 0 => some (largest, breaks, c)
  | fuel + 1 =>
    let inside := indent = 0 ∨ c.column < indent
    if inside ∧ c.head = ' ' then blockBreaks? fuel indent largest breaks c.next
    else
      let largest := max largest c.column
      if inside ∧ c.head = '\t' then none
      else if isBreak c.head then blockBreaks? fuel indent largest (breaks + 1) c.skipBreak
      else some (largest, breaks, c)

/-- What has been read of a block. -/
structure BlockText where
  /-- The text, reversed. -/
  text : List Char
  /-- Whether a line end follows the text. -/
  hasBreak : Bool
  /-- The line ends after that. -/
  breaks : Nat
  /-- Whether the last line began with a blank. -/
  indented : Bool

namespace BlockText

/-- Adds a line: a single line end before it is a space if the block is folded and neither line
is indented further. -/
def add (b : BlockText) (folded : Bool) (line : List Char) : BlockText :=
  let blank := (line.head?.map isBlank).getD false
  let joint :=
    if folded && b.hasBreak && !b.indented && !blank then
      if b.breaks = 0 then [' '] else List.replicate b.breaks '\n'
    else List.replicate (b.breaks + b.hasBreak.toNat) '\n'
  ⟨line.reverse ++ (joint ++ b.text), false, 0, blank⟩

/-- The text with the line ends that are kept at its end. -/
def finish (b : BlockText) (chomp : Char) : List Char :=
  let kept := (if chomp = '-' then 0 else b.hasBreak.toNat) + (if chomp = '+' then b.breaks else 0)
  b.text.reverse ++ List.replicate kept '\n'

end BlockText

/-- The lines of a block from the start of one. -/
def blockLines? (fuel : Nat) (h : BlockHeader) (indent : Nat) (b : BlockText) (c : Cursor) :
    Option (List Char × Cursor) :=
  match fuel with
  | 0 => none
  | fuel + 1 =>
    if c.column = indent ∧ !isEnd c.head then
      let line := c.chars.takeWhile fun d => !isLineEnd d
      let b := b.add h.folded line
      let c := c.skip line.length
      if isEnd c.head then some (b.finish h.chomp, c)
      else
        match blockBreaks? c.chars.length indent 0 0 c.skipBreak with
        | none => none
        | some (_, breaks, c) =>
          blockLines? fuel h indent { b with hasBreak := true, breaks := breaks } c
    else some (b.finish h.chomp, c)

/-- A block of text from after its mark; `least` is the smallest indentation it may have. -/
def block? (folded : Bool) (least : Nat) (c : Cursor) : Option (List Char × Cursor) := do
  let (h, c) ← BlockHeader.read? folded c
  let given := if h.indent = 0 then 0 else least - 1 + h.indent
  let (largest, breaks, c) ← blockBreaks? (c.chars.length + 1) given 0 0 c
  let indent := if given = 0 then max (max largest least) 1 else given
  blockLines? (c.chars.length + 1) h indent ⟨[], false, breaks, false⟩ c

end PolicyLookup.Yaml
