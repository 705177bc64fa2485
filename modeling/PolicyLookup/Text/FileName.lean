/-
  PolicyLookup.Text.FileName — the parts of the name of a file.
-/

namespace PolicyLookup.Text

/-- The last part of a path. -/
def fileName (path : String) : List Char :=
  (path.toList.reverse.takeWhile (· != '/')).reverse

/-- What follows the last point of a file's name; a point at its start does not count. -/
def extension? (path : String) : Option String :=
  let name := fileName path
  let reversed := name.reverse
  let stem := (reversed.dropWhile (· != '.')).drop 1
  if stem.isEmpty || name = ['.', '.'] then none
  else some (String.ofList (reversed.takeWhile (· != '.')).reverse)

end PolicyLookup.Text
