/-
  PolicyLookup.Value.Located — a fault and the path to where it was found.
-/

import PolicyLookup.Value.Path

namespace PolicyLookup

/-- A fault in a part of a nested value. -/
structure Located (δ : Type) where
  /-- The steps from the root of the value to the part. -/
  path : Path
  fault : δ
deriving DecidableEq

namespace Located

variable {δ : Type}

/-- A fault at the root. -/
def here (fault : δ) : Located δ := ⟨[], fault⟩

/-- The same fault, seen from one step further up. -/
def under (step : String) (l : Located δ) : Located δ := ⟨step :: l.path, l.fault⟩

end Located

end PolicyLookup
