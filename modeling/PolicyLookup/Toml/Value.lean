/-
  PolicyLookup.Toml.Value — the values of TOML.

  Strings come in four styles, integers in four bases, and dates count as their text.  Arrays
  may go over several lines, tables between braces may not.
-/

import PolicyLookup.Number.Decimal
import PolicyLookup.Toml.Moment
import PolicyLookup.Value.Keyed

namespace PolicyLookup.Toml

/-- A space or a tab. -/
def isBlank (c : Char) : Bool := c = ' ' || c = '\t'

/-- The text without blanks at its start. -/
def skipBlanks (cs : List Char) : List Char := cs.dropWhile isBlank

/-- A control character other than the tab. -/
def isControl (c : Char) : Bool := (c.toNat < 32 && c != '\t') || c.toNat = 127

/-- The text after a comment, if there is one. -/
def skipComment : List Char → List Char
  | '#' :: cs => cs.dropWhile (· != '\n')
  | cs => cs

/-- The text after blanks, line ends and comments. -/
def skipLines (fuel : Nat) (cs : List Char) : List Char :=
  match fuel with
  | 0 => cs
  | fuel + 1 =>
    match skipComment (skipBlanks cs) with
    | '\n' :: cs => skipLines fuel cs
    | '\r' :: '\n' :: cs => skipLines fuel cs
    | cs => cs

/-! ## §1. Strings. -/

/-- The character of an escape with one letter. -/
def unescape? : Char → Option Char
  | 'b' => some '\x08'
  | 't' => some '\t'
  | 'n' => some '\n'
  | 'f' => some '\x0c'
  | 'r' => some '\r'
  | '"' => some '"'
  | '\\' => some '\\'
  | _ => none

/-- The character of a code written with hexadecimal digits. -/
def codeChar? (digits : List Char) : Option Char :=
  match Text.Hex.number? digits with
  | some n => if n < 0xD800 ∨ 0xE000 ≤ n ∧ n < 0x110000 then some (Char.ofNat n) else none
  | none => none

/-- A string between quotes on one line, from after the opening quote. -/
def basic : List Char → Option (List Char × List Char)
  | [] => none
  | '"' :: cs => some ([], cs)
  | '\\' :: 'u' :: a :: b :: c :: d :: cs => do
    let x ← codeChar? [a, b, c, d]
    let (s, cs) ← basic cs
    return (x :: s, cs)
  | '\\' :: 'U' :: a :: b :: c :: d :: e :: f :: g :: h :: cs => do
    let x ← codeChar? [a, b, c, d, e, f, g, h]
    let (s, cs) ← basic cs
    return (x :: s, cs)
  | '\\' :: c :: cs => do
    let x ← unescape? c
    let (s, cs) ← basic cs
    return (x :: s, cs)
  | c :: cs =>
    if isControl c ∨ c = '\\' then none
    else do
      let (s, cs) ← basic cs
      return (c :: s, cs)

/-- A string without escapes on one line, from after the opening quote. -/
def literal : List Char → Option (List Char × List Char)
  | [] => none
  | '\'' :: cs => some ([], cs)
  | c :: cs =>
    if isControl c then none
    else do
      let (s, cs) ← literal cs
      return (c :: s, cs)

/-- A string over several lines, from after the opening quotes. -/
def longBasic (fuel : Nat) (cs : List Char) : Option (List Char × List Char) :=
  match fuel with
  | 0 => none
  | fuel + 1 =>
    match cs with
    | [] => none
    | '"' :: '"' :: '"' :: cs => some ([], cs)
    | '\\' :: 'u' :: a :: b :: c :: d :: cs => do
      let x ← codeChar? [a, b, c, d]
      let (s, cs) ← longBasic fuel cs
      return (x :: s, cs)
    | '\\' :: c :: cs =>
      match unescape? c with
      | some x => do
        let (s, cs) ← longBasic fuel cs
        return (x :: s, cs)
      | none =>
        match skipBlanks (c :: cs) with
        | '\n' :: cs => longBasic fuel (cs.dropWhile fun d => isBlank d || d = '\n' || d = '\r')
        | '\r' :: '\n' :: cs =>
          longBasic fuel (cs.dropWhile fun d => isBlank d || d = '\n' || d = '\r')
        | _ => none
    | c :: cs =>
      if c = '\\' then none
      else do
        let (s, cs) ← longBasic fuel cs
        return (c :: s, cs)

/-- A string without escapes over several lines, from after the opening quotes. -/
def longLiteral : List Char → Option (List Char × List Char)
  | [] => none
  | '\'' :: '\'' :: '\'' :: cs => some ([], cs)
  | c :: cs => do
    let (s, cs) ← longLiteral cs
    return (c :: s, cs)

/-- The text after a line end right at the start. -/
def skipLineEnd : List Char → List Char
  | '\n' :: cs => cs
  | '\r' :: '\n' :: cs => cs
  | cs => cs

/-- A string at the start of the input. -/
def string? (cs : List Char) : Option (List Char × List Char) :=
  match cs with
  | '"' :: '"' :: '"' :: cs => longBasic (cs.length + 1) (skipLineEnd cs)
  | '\'' :: '\'' :: '\'' :: cs => longLiteral (skipLineEnd cs)
  | '"' :: cs => basic cs
  | '\'' :: cs => literal cs
  | _ => none

/-! ## §2. Numbers and words. -/

/-- Whether every underscore stands between two digits. -/
def underscoresFit : (before : Bool) → List Char → Bool
  | _, [] => true
  | before, '_' :: cs =>
    before && ((cs.head?.map fun c => (Text.Hex.digit? c).isSome).getD false)
      && underscoresFit false cs
  | _, c :: cs => underscoresFit (Text.Hex.digit? c).isSome cs

/-- A number without a needless zero at its start. -/
def hasPlainStart (cs : List Char) : Bool :=
  match cs with
  | '0' :: c :: _ => !Number.isDigit c
  | c :: _ => Number.isDigit c
  | [] => false

/-- A number in another base, if it has 64 bits with a sign. -/
def inBase? (base : Nat) (ds : List Char) : Option Int :=
  (Number.inBase? base ds).bind fun n => if n < 9223372036854775808 then some n else none

/-- An integer. -/
def int? (cs : List Char) : Option Int :=
  match cs with
  | '0' :: 'x' :: ds => inBase? 16 ds
  | '0' :: 'o' :: ds => inBase? 8 ds
  | '0' :: 'b' :: ds => inBase? 2 ds
  | cs => if hasPlainStart (Json.Literal.readSign true cs).2 then Number.int64Text? cs else none

/-- Whether digits stand on both sides of every point. -/
def pointsFit : (before : Bool) → List Char → Bool
  | _, [] => true
  | before, '.' :: cs => before && (cs.head?.map Number.isDigit).getD false && pointsFit false cs
  | _, c :: cs => pointsFit (Number.isDigit c) cs

/-- A double; digits alone are none. -/
def float? (cs : List Char) : Option Binary64 :=
  let (negative, rest) := Json.Literal.readSign true cs
  if rest = ['i', 'n', 'f'] then some (.infinity negative)
  else if rest = ['n', 'a', 'n'] then some .nan
  else if hasPlainStart rest && pointsFit false rest && !rest.all Number.isDigit then
    Number.unsignedFloat? negative rest
  else none

/-- Whether a text begins like a date or a time. -/
def isMoment (cs : List Char) : Bool := cs[2]? = some ':' || (Moment.date? cs).isSome

/-- The value of a word. -/
def word? (cs : List Char) : Option Json :=
  if cs = ['t', 'r', 'u', 'e'] then some (.bool true)
  else if cs = ['f', 'a', 'l', 's', 'e'] then some (.bool false)
  else if isMoment cs then (Moment.canonical? cs).map fun text => .str (String.ofList text)
  else if underscoresFit false cs then
    let cs := cs.filter (· != '_')
    match int? cs with
    | some n => some (.int n)
    | none => (float? cs).map .float
  else none

/-- A character of a word. -/
def isWordChar (c : Char) : Bool :=
  c.isAlphanum || ['+', '-', '_', '.', ':'].contains c

/-- The word at the start of the input.  A single blank may separate a date from a time. -/
def word (cs : List Char) : List Char :=
  let first := cs.takeWhile isWordChar
  match cs.drop first.length with
  | ' ' :: c :: rest =>
    if Number.isDigit c && Moment.date? first == some (first, []) then
      first ++ ' ' :: (c :: rest).takeWhile isWordChar
    else first
  | _ => first

/-! ## §3. Keys and values. -/

/-- A character of a key without quotes. -/
def isKeyChar (c : Char) : Bool := c.isAlphanum || c = '_' || c = '-'

/-- One part of a key. -/
def keyPart? (cs : List Char) : Option (String × List Char) :=
  match cs with
  | '"' :: cs => (basic cs).map fun (s, cs) => (String.ofList s, cs)
  | '\'' :: cs => (literal cs).map fun (s, cs) => (String.ofList s, cs)
  | cs =>
    let part := cs.takeWhile isKeyChar
    if part.isEmpty then none else some (String.ofList part, cs.dropWhile isKeyChar)

/-- The parts of a key, separated by points. -/
def key? (fuel : Nat) (cs : List Char) : Option (List String × List Char) :=
  match fuel with
  | 0 => none
  | fuel + 1 => do
    let (part, cs) ← keyPart? (skipBlanks cs)
    match skipBlanks cs with
    | '.' :: cs =>
      let (parts, cs) ← key? fuel cs
      return (part :: parts, cs)
    | cs => return ([part], cs)

/-- Whether two paths lead to the same place or one leads through the other. -/
def overlap (p q : List String) : Bool := p.isPrefixOf q || q.isPrefixOf p

mutual

/-- A value at the start of the input. -/
def value? (fuel : Nat) (cs : List Char) : Option (Json × List Char) :=
  match fuel with
  | 0 => none
  | fuel + 1 =>
    match cs with
    | '[' :: cs => (elements? fuel cs).map fun (vs, cs) => (.arr vs, cs)
    | '\x7b' :: cs => (members? fuel [] (skipBlanks cs)).map fun cs => (.obj [], cs)
    | c :: cs =>
      if c = '"' ∨ c = '\'' then
        (string? (c :: cs)).map fun (s, cs) => (.str (String.ofList s), cs)
      else
        let w := word (c :: cs)
        (word? w).map fun v => (v, (c :: cs).drop w.length)
    | [] => none

/-- The elements of an array up to its closing bracket. -/
def elements? (fuel : Nat) (cs : List Char) : Option (List Json × List Char) :=
  match fuel with
  | 0 => none
  | fuel + 1 =>
    match skipLines (cs.length + 1) cs with
    | ']' :: cs => some ([], cs)
    | cs =>
      match value? fuel cs with
      | none => none
      | some (v, cs) =>
        match skipLines (cs.length + 1) cs with
        | ',' :: cs => (elements? fuel cs).map fun (vs, cs) => (v :: vs, cs)
        | ']' :: cs => some ([v], cs)
        | _ => none

/-- The input after the members of a table between braces; `seen` are its keys so far. -/
def members? (fuel : Nat) (seen : List (List String)) (cs : List Char) : Option (List Char) :=
  match fuel with
  | 0 => none
  | fuel + 1 =>
    match cs with
    | '\x7d' :: cs => if seen.isEmpty then some cs else none
    | cs =>
      match key? (cs.length + 1) cs with
      | none => none
      | some (key, cs) =>
        match skipBlanks cs with
        | '=' :: cs =>
          if seen.any (overlap key) then none
          else
            match value? fuel (skipBlanks cs) with
            | none => none
            | some (_, cs) =>
              match skipBlanks cs with
              | ',' :: cs => members? fuel (key :: seen) (skipBlanks cs)
              | '\x7d' :: cs => some cs
              | _ => none
        | _ => none

end

end PolicyLookup.Toml
