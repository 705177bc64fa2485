/-
  PolicyLookup.Toml.Reader — reading the TOML that settings are written in.

  What is wanted are the members of the top level.  A member that is a table is kept as an empty
  one, but everything is read, and a key that is given twice is refused.
-/

import PolicyLookup.Toml.Value

namespace PolicyLookup.Toml

/-- What has been read so far. -/
structure Reading where
  /-- The table that the next keys belong to. -/
  table : List String
  /-- The paths of all values. -/
  leaves : List (List String)
  /-- The paths of all tables that have a heading. -/
  headings : List (List String)
  /-- The members of the top level. -/
  members : List (String × Json)

namespace Reading

/-- Nothing has been read. -/
def empty : Reading := ⟨[], [], [], []⟩

/-- A value under a key of the current table. -/
def define? (r : Reading) (key : List String) (value : Json) : Option Reading :=
  let path := r.table ++ key
  if r.leaves.any (overlap path) || r.headings.contains path then none
  else
    let member := match path with
      | [] => []
      | [name] => [(name, value)]
      | name :: _ => [(name, .obj [])]
    some { r with leaves := path :: r.leaves, members := r.members ++ member }

/-- The heading of a table. -/
def open? (r : Reading) (path : List String) : Option Reading :=
  if r.headings.contains path || r.leaves.any (·.isPrefixOf path) then none
  else
    some { r with
      table := path
      headings := path :: r.headings
      members := r.members ++ [(path.headD "", .obj [])] }

/-- The heading of the next element of an array of tables; nothing is defined in it yet. -/
def openElement? (r : Reading) (path : List String) : Option Reading :=
  if r.leaves.contains path then none
  else
    some { r with
      table := path
      leaves := r.leaves.filter fun l => !path.isPrefixOf l
      headings := r.headings.filter fun h => !path.isPrefixOf h
      members := r.members ++ [(path.headD "", .arr [])] }

end Reading

/-- The input after the end of a line, which may have a comment. -/
def endLine? (cs : List Char) : Option (List Char) :=
  match skipComment (skipBlanks cs) with
  | [] => some []
  | '\n' :: cs => some cs
  | '\r' :: '\n' :: cs => some cs
  | _ => none

/-- One heading or one key with its value, up to the end of its line. -/
def statement? (r : Reading) (cs : List Char) : Option (Reading × List Char) :=
  let fuel := cs.length + 1
  match cs with
  | '[' :: '[' :: cs => do
    let (path, cs) ← key? fuel cs
    match cs with
    | ']' :: ']' :: cs => return (← r.openElement? path, ← endLine? cs)
    | _ => none
  | '[' :: cs => do
    let (path, cs) ← key? fuel cs
    match cs with
    | ']' :: cs => return (← r.open? path, ← endLine? cs)
    | _ => none
  | cs => do
    let (key, cs) ← key? fuel cs
    match skipBlanks cs with
    | '=' :: cs =>
      let (value, cs) ← value? (2 * fuel) (skipBlanks cs)
      return (← r.define? key value, ← endLine? cs)
    | _ => none

/-- All statements of a text. -/
def statements? (fuel : Nat) (r : Reading) (cs : List Char) : Option Reading :=
  match fuel with
  | 0 => none
  | fuel + 1 =>
    match skipLines (cs.length + 1) cs with
    | [] => some r
    | cs =>
      match statement? r cs with
      | none => none
      | some (r, cs) => statements? fuel r cs

/-- The document of a text. -/
def ofText? (text : String) : Option Json :=
  let cs := text.toList
  (statements? (cs.length + 1) .empty cs).map fun r => .obj r.members

end PolicyLookup.Toml
