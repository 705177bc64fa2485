/-
  PolicyLookup.Value.Path — where in a nested value a part stands.

  A path is the list of field names and indices that lead to the part.  It is shown with dots
  between its steps; as long as nothing has been shown yet no dot is written, and an empty
  text is shown as `<root>`.
-/

import PolicyLookup.Number.Digits

namespace PolicyLookup

/-- The steps from the root of a value to one of its parts. -/
abbrev Path := List String

namespace Path

/-- The text of a path one step further down. -/
def child (parent field : String) : String :=
  if parent.isEmpty then field else parent ++ "." ++ field

/-- The steps of a path joined from the root. -/
def joined (p : Path) : String := p.foldl child ""

/-- The text of a path in a message. -/
def display (p : Path) : String :=
  if p.joined.isEmpty then "<root>" else p.joined

/-- The step to the element with the given index. -/
def index (i : Nat) : String := String.ofList (Number.digits i)

end Path

end PolicyLookup
