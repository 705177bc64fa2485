/-
  PolicyLookup.Policy.Text — the text of an expression.

  A key of a reference is written after a point if it is an identifier, and between brackets
  otherwise.
-/

import PolicyLookup.Json.Writer
import PolicyLookup.Policy.Basic
import PolicyLookup.Signature

namespace PolicyLookup.Policy

/-- A letter or an underscore, then letters, digits and underscores. -/
def isIdentifier (s : String) : Bool :=
  match s.toList with
  | [] => false
  | c :: rest => Signature.isNameStart c && rest.all Signature.isNameRest

namespace Expr

/-- A key that is a text. -/
def keyChars (s : String) : List Char :=
  if isIdentifier s then '.' :: s.toList else '[' :: (Json.quote s ++ [']'])

mutual

/-- The characters of an expression. -/
def chars : Expr → List Char
  | .null => ['n', 'u', 'l', 'l']
  | .bool b => Json.boolChars b
  | .str s => Json.quote s
  | .num text _ => text.toList
  | .arr items => '[' :: (itemsChars items ++ [']'])
  | .set [] => ['s', 'e', 't', '(', ')']
  | .set items => '\x7b' :: (itemsChars items ++ ['\x7d'])
  | .obj pairs => '\x7b' :: (pairsChars pairs ++ ['\x7d'])
  | .call function args => function.toList ++ '(' :: (itemsChars args ++ [')'])
  | .ref head keys => head.toList ++ keysChars keys
  | .eq left right => chars left ++ ' ' :: '=' :: '=' :: ' ' :: chars right

/-- Expressions separated by commas. -/
def itemsChars : List Expr → List Char
  | [] => []
  | [e] => chars e
  | e :: rest => chars e ++ ',' :: ' ' :: itemsChars rest

/-- Pairs separated by commas. -/
def pairsChars : List (Expr × Expr) → List Char
  | [] => []
  | [(k, v)] => chars k ++ ':' :: ' ' :: chars v
  | (k, v) :: rest => chars k ++ ':' :: ' ' :: (chars v ++ ',' :: ' ' :: pairsChars rest)

/-- The keys of a reference. -/
def keysChars : List Expr → List Char
  | [] => []
  | .str s :: rest => keyChars s ++ keysChars rest
  | e :: rest => '[' :: (chars e ++ ']' :: keysChars rest)

end

/-- The text of an expression. -/
def text (e : Expr) : String := String.ofList e.chars

end Expr

end PolicyLookup.Policy
