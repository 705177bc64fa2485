/-
  PolicyLookup.Yaml.Token — the tokens of a YAML text.

  Indentation opens and closes block collections.  Where a node may turn out to be a key, its
  place is kept until a colon comes: then the tokens of a key are put before it.
-/

import PolicyLookup.Yaml.Scalar

namespace PolicyLookup.Yaml

/-- A token. -/
inductive Token where
  | directive
  | documentStart
  | documentEnd
  | blockSequence
  | blockMapping
  | blockEnd
  /-- The dash before an item of a block sequence. -/
  | item
  | flowSequence
  | flowSequenceEnd
  | flowMapping
  | flowMappingEnd
  /-- The comma in a flow collection. -/
  | comma
  | key
  | value
  | anchor (name : String)
  | alias (name : String)
  | tag (handle suffix : String)
  | scalar (plain : Bool) (text : String)
deriving Inhabited

/-- A place where a key may begin. -/
structure KeyPlace where
  /-- Whether the key can still be one. -/
  possible : Bool
  /-- Whether it must be one. -/
  required : Bool
  /-- The number of tokens before it. -/
  number : Nat
  index : Nat
  line : Nat
  column : Nat

/-- No key may begin. -/
def KeyPlace.impossible : KeyPlace := ⟨false, false, 0, 0, 0, 0⟩

/-- How far a text has been read. -/
structure Lexing where
  cursor : Cursor
  tokens : List Token
  /-- Whether a key may begin here. -/
  keyAllowed : Bool
  /-- The last place for a key on the current level. -/
  key : KeyPlace
  /-- Those on the levels around. -/
  outerKeys : List KeyPlace
  /-- The indentation of the current block collection; -1 outside of all. -/
  indent : Int
  /-- Those of the collections around. -/
  outerIndents : List Int
  /-- How many flow collections are open. -/
  flow : Nat
  /-- Where a colon may follow a quoted key directly. -/
  adjacent : Option Nat

namespace Lexing

/-- The beginning of a text. -/
def start (text : List Char) : Lexing where
  cursor := .start text
  tokens := []
  keyAllowed := true
  key := .impossible
  outerKeys := []
  indent := -1
  outerIndents := []
  flow := 0
  adjacent := none

/-- Adds a token. -/
def emit (s : Lexing) (t : Token) : Lexing := { s with tokens := s.tokens ++ [t] }

/-- Goes to another place. -/
def moveTo (s : Lexing) (c : Cursor) : Lexing := { s with cursor := c }

/-- Adds a token of so many characters. -/
def emitMark (s : Lexing) (t : Token) (length : Nat) : Lexing :=
  (s.emit t).moveTo (s.cursor.skip length)

/-- Allows keys, or not. -/
def allow (s : Lexing) (allowed : Bool) : Lexing := { s with keyAllowed := allowed }

/-- The smallest indentation of nodes here. -/
def least (s : Lexing) : Nat := (s.indent + 1).toNat

/-! ## §1. Indentation. -/

/-- Opens a block collection if this is indented further; its token comes at the given number
or at the end. -/
def roll (s : Lexing) (column : Nat) (number : Option Nat) (t : Token) : Lexing :=
  if s.flow = 0 ∧ s.indent < column then
    { s with
      indent := column
      outerIndents := s.indent :: s.outerIndents
      tokens := match number with
        | some n => s.tokens.take n ++ t :: s.tokens.drop n
        | none => s.tokens ++ [t] }
  else s

/-- The number of collections to be closed, and the indentation after that. -/
def closing (column indent : Int) : List Int → Nat × Int × List Int
  | [] => (0, indent, [])
  | outer :: rest =>
    if column < indent then
      let (n, r) := closing column outer rest
      (n + 1, r)
    else (0, indent, outer :: rest)

/-- Closes the block collections that are indented further. -/
def unroll (s : Lexing) (column : Int) : Lexing :=
  if s.flow = 0 then
    let (n, indent, outer) := closing column s.indent s.outerIndents
    { s with
      indent := indent
      outerIndents := outer
      tokens := s.tokens ++ List.replicate n .blockEnd }
  else s

/-! ## §2. Keys. -/

/-- Gives up the last place for a key, unless there must be one. -/
def dropKey? (s : Lexing) : Option Lexing :=
  if s.key.possible ∧ s.key.required then none
  else some { s with key := { s.key with possible := false } }

/-- The place for a key here, if keys are allowed. -/
def saveKey? (s : Lexing) : Option Lexing :=
  if s.keyAllowed then
    s.dropKey?.map fun s =>
      { s with
        key :=
          { possible := true
            required := s.flow != 0 && s.indent == s.cursor.column
            number := s.tokens.length
            index := s.cursor.index
            line := s.cursor.line
            column := s.cursor.column } }
  else some s

/-- A key is on one line and not longer than this. -/
def longestKey : Nat := 1024

/-- Whether a key that began there would be too long here. -/
def isStale (c : Cursor) (k : KeyPlace) : Bool :=
  k.possible && (decide (k.line < c.line) || decide (k.index + longestKey < c.index))

/-- Gives up all places for keys that would be too long. -/
def dropStale? (s : Lexing) : Option Lexing :=
  if (s.key :: s.outerKeys).any fun k => isStale s.cursor k && k.required then none
  else
    let refresh := fun k => if isStale s.cursor k then { k with possible := false } else k
    some { s with key := refresh s.key, outerKeys := s.outerKeys.map refresh }

/-! ## §3. Marks. -/

/-- A token that takes a level back to the margin. -/
def documentMark? (s : Lexing) (t : Token) : Option Lexing :=
  (s.unroll (-1)).dropKey?.map fun s => (s.allow false).emitMark t 3

/-- The opening of a flow collection. -/
def openFlow? (s : Lexing) (t : Token) : Option Lexing :=
  if s.flow < 255 then
    s.saveKey?.map fun s =>
      ({ s with
        flow := s.flow + 1
        key := .impossible
        outerKeys := s.key :: s.outerKeys }.allow true).emitMark t 1
  else none

/-- The closing of a flow collection. -/
def closeFlow? (s : Lexing) (t : Token) : Option Lexing :=
  s.dropKey?.map fun s =>
    let s := match s.outerKeys with
      | k :: ks => { s with flow := s.flow - 1, key := k, outerKeys := ks }
      | [] => s
    (s.allow false).emitMark t 1

/-- The comma of a flow collection. -/
def comma? (s : Lexing) : Option Lexing :=
  s.dropKey?.map fun s => (s.allow true).emitMark .comma 1

/-- The dash of an item, which must be in a block. -/
def item? (s : Lexing) : Option Lexing :=
  if s.flow = 0 ∧ s.keyAllowed then
    (s.roll s.cursor.column none .blockSequence).dropKey?.map fun s =>
      (s.allow true).emitMark .item 1
  else none

/-- The mark of a key that is not on one line with its value. -/
def key? (s : Lexing) : Option Lexing :=
  if s.flow = 0 ∧ !s.keyAllowed then none
  else
    (s.roll s.cursor.column none .blockMapping).dropKey?.map fun s =>
      (s.allow (s.flow = 0)).emitMark .key 1

/-- The colon before a value. -/
def value? (s : Lexing) : Option Lexing :=
  if s.key.possible then
    -- The node before the colon is the key: its token goes before that node, and before the
    -- key the token of the mapping, if one opens here.
    let n := s.key.number
    let s := { s with tokens := s.tokens.take n ++ Token.key :: s.tokens.drop n }
    let s := s.roll s.key.column (some n) .blockMapping
    some (({ s with key := { s.key with possible := false } }.allow false).emitMark .value 1)
  else if s.flow = 0 ∧ !s.keyAllowed then none
  else
    -- The key is empty, or it had a mark of its own.
    let s := s.roll s.cursor.column none .blockMapping
    some ((s.allow (s.flow = 0)).emitMark .value 1)

/-! ## §4. Names. -/

/-- What may follow the name of an anchor. -/
def endsName (c : Char) : Bool :=
  isGap c || ['?', ':', ',', ']', '\x7d', '%', '@', '\x60'].contains c

/-- An anchor or a reference to one. -/
def anchor? (s : Lexing) (t : String → Token) : Option Lexing :=
  s.saveKey?.bind fun s =>
    let name := s.cursor.next.chars.takeWhile isNameChar
    let c := s.cursor.skip (name.length + 1)
    if name.isEmpty || !endsName c.head then none
    else some (((s.allow false).emit (t (String.ofList name))).moveTo c)

/-- A character of the suffix of a tag. -/
def isTagChar (c : Char) : Bool :=
  isNameChar c || [';', '/', '?', ':', '@', '&', '=', '+', '$', ',', '.', '!', '~', '*', '\'',
    '(', ')', '[', ']', '%'].contains c

/-- The handle and the suffix of the tag here, and its length. -/
def tagParts (c : Cursor) : String × String × Nat :=
  let text := c.next.chars
  if text.head? = some '<' then
    let suffix := text.tail.takeWhile isTagChar
    ("", String.ofList suffix, suffix.length + 3)
  else
    let name := text.takeWhile isNameChar
    let rest := text.drop name.length
    if rest.head? = some '!' then
      let suffix := rest.tail.takeWhile isTagChar
      let handle := '!' :: (name ++ ['!'])
      (String.ofList handle, String.ofList suffix, handle.length + suffix.length)
    else
      let suffix := text.takeWhile isTagChar
      ("!", String.ofList suffix, suffix.length + 1)

/-- A tag. -/
def tag? (s : Lexing) : Option Lexing :=
  s.saveKey?.bind fun s =>
    let (handle, suffix, length) := tagParts s.cursor
    let c := s.cursor.skip length
    if !isGap c.head || (suffix.isEmpty && handle != "!") then none
    else some (((s.allow false).emit (.tag handle suffix)).moveTo c)

/-! ## §5. Scalars. -/

/-- A scalar token, after whether keys may follow it. -/
def emitScalar (s : Lexing) (plain : Bool) (text : List Char) (keys : Bool) (c : Cursor) : Lexing :=
  ((s.allow keys).emit (.scalar plain (String.ofList text))).moveTo c

/-- A text without quotes. -/
def plainScalar? (s : Lexing) : Option Lexing :=
  s.saveKey?.bind fun s =>
    let fuel := s.cursor.chars.length + 1
    (plain? fuel (s.flow != 0) s.least [] .empty s.cursor).map fun (text, lineEnded, c) =>
      s.emitScalar true text lineEnded c

/-- A text between quotes. -/
def quotedScalar? (s : Lexing) : Option Lexing :=
  s.saveKey?.bind fun s =>
    let c := s.cursor
    (quoted? (c.chars.length + 1) c.head [] c.next).map fun (text, c) =>
      { s.emitScalar false text false c with adjacent := some c.index }

/-- A block of text. -/
def blockScalar? (s : Lexing) (folded : Bool) : Option Lexing :=
  s.saveKey?.bind fun s =>
    (block? folded s.least s.cursor.next).map fun (text, c) => s.emitScalar false text true c

/-! ## §6. Directives. -/

/-- Some digits. -/
def digits? (c : Cursor) : Option Cursor :=
  if c.head.isDigit then some (c.skipWhile Char.isDigit) else none

/-- The place after what belongs to a directive. -/
def directiveBody? (name : List Char) (c : Cursor) : Option Cursor :=
  if name = ['Y', 'A', 'M', 'L'] then do
    let c ← digits? (c.skipWhile isBlank)
    if c.head = '.' then digits? c.next else none
  else some (c.skipWhile fun d => !isLineEnd d)

/-- A directive. -/
def directive? (s : Lexing) : Option Lexing :=
  (s.unroll (-1)).dropKey?.bind fun s =>
    let name := s.cursor.next.chars.takeWhile isNameChar
    let c := s.cursor.skip (name.length + 1)
    if name.isEmpty || !isGap c.head then none
    else
      (directiveBody? name c).bind fun c =>
        let c := (c.skipWhile isBlank).skipComment
        if isLineEnd c.head then some (((s.allow false).emit .directive).moveTo c) else none

/-! ## §7. Texts. -/

/-- Goes over blanks, line ends and comments.  Tabs do not indent what may be a key. -/
def skipSpace (fuel : Nat) (s : Lexing) : Lexing :=
  match fuel with
  | 0 => s
  | fuel + 1 =>
    let c := s.cursor
    if c.head = ' ' ∨ (c.head = '\t' ∧ (s.flow ≠ 0 ∨ !s.keyAllowed)) then
      skipSpace fuel (s.moveTo c.next)
    else if isBreak c.head then
      skipSpace fuel ((s.allow (s.keyAllowed || s.flow == 0)).moveTo c.skipBreak)
    else if c.head = '#' then skipSpace fuel (s.moveTo c.skipComment)
    else s

/-- Whether a colon here is the one before a value. -/
def isValueMark (s : Lexing) : Bool :=
  let next := s.cursor.peek 1
  s.cursor.head = ':'
    && (isGap next || (s.flow != 0 && (isFlowMark next || s.adjacent == some s.cursor.index)))

/-- The token here. -/
def step? (s : Lexing) : Option Lexing :=
  let c := s.cursor
  let next := c.peek 1
  if c.column = 0 ∧ c.head = '%' then s.directive?
  else if c.isMark '-' then s.documentMark? .documentStart
  else if c.isMark '.' then s.documentMark? .documentEnd
  else if c.head = '[' then s.openFlow? .flowSequence
  else if c.head = '\x7b' then s.openFlow? .flowMapping
  else if c.head = ']' then s.closeFlow? .flowSequenceEnd
  else if c.head = '\x7d' then s.closeFlow? .flowMappingEnd
  else if c.head = ',' then s.comma?
  else if c.head = '-' ∧ isGap next then s.item?
  else if c.head = '?' ∧ (s.flow ≠ 0 ∨ isGap next) then s.key?
  else if s.isValueMark then s.value?
  else if c.head = '*' then s.anchor? .alias
  else if c.head = '&' then s.anchor? .anchor
  else if c.head = '!' then s.tag?
  else if c.head = '|' ∧ s.flow = 0 then s.blockScalar? false
  else if c.head = '>' ∧ s.flow = 0 then s.blockScalar? true
  else if c.head = '\'' ∨ c.head = '"' then s.quotedScalar?
  else if ['%', '@', '\x60'].contains c.head then none
  else s.plainScalar?

/-- All tokens from here on. -/
def run? (fuel : Nat) (s : Lexing) : Option (List Token) :=
  match fuel with
  | 0 => none
  | fuel + 1 =>
    match (s.skipSpace (s.cursor.chars.length + 1)).dropStale? with
    | none => none
    | some s =>
      let s := s.unroll s.cursor.column
      if isEnd s.cursor.head then ((s.unroll (-1)).dropKey?).map (·.tokens)
      else
        match s.step? with
        | none => none
        | some s => run? fuel s

end Lexing

/-- The tokens of a text. -/
def Token.ofText? (text : List Char) : Option (List Token) :=
  (Lexing.start text).run? (text.length + 2)

end PolicyLookup.Yaml
