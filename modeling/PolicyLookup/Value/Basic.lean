/-
  PolicyLookup.Value.Basic — native values, the common ground of policies and the store.

  Arguments of a policy's call are decoded into them, filters are built from them, and stored
  documents are decoded into them.  Integers and doubles are kept apart.
-/

import PolicyLookup.Number.Binary64
import PolicyLookup.Value.Keyed

namespace PolicyLookup

/-- A native value.  The entries of a mapping ascend by key, see `Value.Ordered`. -/
inductive Value where
  | null
  | bool (b : Bool)
  | int (n : Int64)
  | float (x : Binary64)
  | str (s : String)
  | seq (items : List Value)
  | map (entries : List (String × Value))
deriving Inhabited

/-- A mapping from field names to values, in ascending order of the names. -/
abbrev Mapping := List (String × Value)

namespace Value

/-- The name of a value's kind in messages. -/
def kind : Value → String
  | .null => "null"
  | .bool _ => "boolean"
  | .int _ => "number"
  | .float _ => "number"
  | .str _ => "string"
  | .seq _ => "array"
  | .map _ => "object"

/-- The text, of a string. -/
def asStr? : Value → Option String
  | .str s => some s
  | _ => none

/-- The entries, of a mapping. -/
def asMapping? : Value → Option Mapping
  | .map entries => some entries
  | _ => none

/-- The items, of a sequence. -/
def asSequence? : Value → Option (List Value)
  | .seq items => some items
  | _ => none

/-! ## §1. Mappings in order, at every depth. -/

mutual

/-- Every mapping inside a value has ascending keys. -/
def Ordered : Value → Prop
  | .null => True
  | .bool _ => True
  | .int _ => True
  | .float _ => True
  | .str _ => True
  | .seq items => AllOrdered items
  | .map entries => Keyed.Ascending entries ∧ EntriesOrdered entries

/-- Every value of a sequence is ordered. -/
def AllOrdered : List Value → Prop
  | [] => True
  | v :: rest => Ordered v ∧ AllOrdered rest

/-- Every value of a mapping is ordered. -/
def EntriesOrdered : List (String × Value) → Prop
  | [] => True
  | (_, v) :: rest => Ordered v ∧ EntriesOrdered rest

end

theorem allOrdered_iff {items : List Value} : AllOrdered items ↔ ∀ v ∈ items, v.Ordered := by
  induction items with
  | nil => exact ⟨fun _ => nofun, fun _ => trivial⟩
  | cons v rest ih => rw [AllOrdered, ih, List.forall_mem_cons]

theorem entriesOrdered_iff {entries : List (String × Value)} :
    EntriesOrdered entries ↔ ∀ e ∈ entries, e.2.Ordered := by
  induction entries with
  | nil => exact ⟨fun _ => nofun, fun _ => trivial⟩
  | cons e rest ih =>
    obtain ⟨k, v⟩ := e
    rw [EntriesOrdered, ih, List.forall_mem_cons]

end Value

end PolicyLookup
