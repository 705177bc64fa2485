/-
  PolicyLookup.Json.Basic — JSON documents.

  Numbers are integers or doubles.  Members keep their order, and a name may come twice: what
  that means is for the reader of a document to say.
-/

import PolicyLookup.Number.Binary64

namespace PolicyLookup

/-- A JSON document. -/
inductive Json where
  | null
  | bool (b : Bool)
  | int (n : Int)
  | float (x : Binary64)
  | str (s : String)
  | arr (items : List Json)
  | obj (members : List (String × Json))
deriving Inhabited

end PolicyLookup
