/-
  PolicyLookup.Evaluation.CallKey — the key under which the result of a call is kept.

  The key is the digest of the function's name, a zero byte, and the arguments as the text of
  a JSON array.  Mappings are in key order, so that the text does not depend on how they were
  built.
-/

import PolicyLookup.Digest.Blake3
import PolicyLookup.Term.Decoding

namespace PolicyLookup

namespace CallKey

/-- The bytes of a call from which its key is made. -/
def message (function : String) (args : List Value) : Except Error (List UInt8) :=
  (args.mapM Value.encodeJson).map fun js =>
    function.toUTF8.toList ++ 0 :: (Json.arr js).compact.toUTF8.toList

/-- The key of a call, for a given digest. -/
def ofCall (digest : List UInt8 → String) (function : String) (args : List Value) :
    Except Error String :=
  (message function args).map digest

end CallKey

end PolicyLookup
