/-
  PolicyLookup.Settings.Source — the places that settings come from.

  A file has its format by the end of its name.  Variables of the environment with the right
  beginning come after the file and win.  Whatever cannot be read is one and the same error.
-/

import PolicyLookup.Json.Reader
import PolicyLookup.Settings.Assignment
import PolicyLookup.Text.FileName
import PolicyLookup.Toml.Reader
import PolicyLookup.Yaml.Node

namespace PolicyLookup

namespace Settings

/-! ## §1. Names of members. -/

/-- A character of a name within a path. -/
def isNameChar (c : Char) : Bool := c.isAlphanum || c = ' ' || c = '_' || c = '-'

/-- Whether the rest of a path goes on in points with names and in brackets with numbers. -/
def isTail (fuel : Nat) (cs : List Char) : Bool :=
  match fuel with
  | 0 => false
  | fuel + 1 =>
    match cs with
    | [] => true
    | '.' :: cs =>
      !(cs.takeWhile isNameChar).isEmpty && isTail fuel (cs.dropWhile isNameChar)
    | '[' :: cs =>
      let ds := cs.dropWhile (· = ' ')
      let rest := (ds.dropWhile Number.isDigit).dropWhile (· = ' ')
      match rest with
      | ']' :: rest => !(ds.takeWhile Number.isDigit).isEmpty && isTail fuel rest
      | _ => false
    | _ => false

/-- A member with a path for its name lies within a container, and only that is kept. -/
def enclose (m : String × Json) : String × Json :=
  let cs := m.1.toList
  let head := cs.takeWhile isNameChar
  let rest := cs.dropWhile isNameChar
  if head.isEmpty || rest.isEmpty || !isTail (rest.length + 1) rest then m
  else (String.ofList head, .obj [])

/-- The members of a document; only an object has some. -/
def membersOf : Json → List (String × Json)
  | .obj members => members.map enclose
  | _ => []

/-! ## §2. Files. -/

/-- The formats of files. -/
inductive Format where
  | json
  | toml
  | yaml
deriving DecidableEq

namespace Format

/-- The ends of names, with their formats. -/
def extensions : List (String × Format) :=
  [("toml", .toml), ("json", .json), ("yaml", .yaml), ("yml", .yaml)]

/-- The document of a text. -/
def read? : Format → String → Option Json
  | json => Json.ofText?
  | toml => Toml.ofText?
  | yaml => Yaml.ofText?

end Format

/-- The names under which a file may be found. -/
def candidates (name : String) : List String :=
  name :: Format.extensions.map fun e => name ++ "." ++ e.1

/-- The file of a name with its format: the file of just this name, or else the first one with
a known extension added. -/
def findFile? (files : String → Option String) (name : String) : Option (Format × String) :=
  match files name with
  | some text =>
    (Text.extension? name).bind fun e =>
      (Format.extensions.lookup e).map fun format => (format, text)
  | none =>
    Format.extensions.findSome? fun (e, format) =>
      (files (name ++ "." ++ e)).map fun text => (format, text)

/-- The members of a file. -/
def fileMembers? (files : String → Option String) (name : String) :
    Option (List (String × Json)) :=
  (findFile? files name).bind fun (format, text) => (format.read? text).map membersOf

/-! ## §3. The environment. -/

/-- The beginning of the variables that count, in lower case. -/
def variableStart : List Char := ['t', 'a', 'u', 't', 'h', '_']

/-- The member that a variable stands for. -/
def memberOfVariable? (v : String × String) : Option (String × Json) :=
  let name := Number.lower v.1.toList
  if variableStart.isPrefixOf name then
    some (enclose (String.ofList (name.drop variableStart.length), .str v.2))
  else none

/-- The members that the environment stands for. -/
def variableMembers (environment : List (String × String)) : List (String × Json) :=
  environment.filterMap memberOfVariable?

/-! ## §4. Settings. -/

/-- Settings, or the error that they cannot be read. -/
def orUnreadable : Option Settings → Except Error Settings
  | none => .error .configUnreadable
  | some s => .ok s

/-- The settings of a YAML text. -/
def ofYaml (text : String) : Except Error Settings :=
  orUnreadable ((Yaml.ofText? text).bind fun j => ofMembers? (membersOf j))

/-- The settings of a file, if one is given, and the environment. -/
def load (files : String → Option String) (environment : List (String × String))
    (file : Option String) : Except Error Settings :=
  let fromFile := match file with
    | none => some []
    | some name => fileMembers? files name
  orUnreadable (fromFile.bind fun members => ofMembers? (members ++ variableMembers environment))

end Settings

end PolicyLookup
