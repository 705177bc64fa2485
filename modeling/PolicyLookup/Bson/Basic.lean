/-
  PolicyLookup.Bson.Basic — the values that a document store keeps.

  A document is a list of fields in their order, each name once.
-/

import PolicyLookup.Number.Binary64

namespace PolicyLookup

/-- Binary data: what it is for, and the bytes. -/
structure Bson.Binary where
  subtype : UInt8
  bytes : List UInt8
deriving DecidableEq, Inhabited

/-- Bytes on their own are of the generic subtype. -/
instance : Coe (List UInt8) Bson.Binary := ⟨fun bytes => ⟨0, bytes⟩⟩

instance : CoeOut Bson.Binary (List UInt8) := ⟨Bson.Binary.bytes⟩

/-- A stored value. -/
inductive Bson where
  | null
  | bool (b : Bool)
  | str (s : String)
  | int32 (n : Int32)
  | int64 (n : Int64)
  | double (x : Binary64)
  | arr (items : List Bson)
  | doc (fields : List (String × Bson))
  | objectId (id : BitVec 96)
  /-- Milliseconds since 1970. -/
  | date (ms : Int64)
  | binary (data : Bson.Binary)
  | decimal128 (bits : BitVec 128)
  | regex (pattern options : String)
  | code (source : String)
  | scopedCode (source : String) (scope : List (String × Bson))
  | timestamp (time increment : UInt32)
  | symbol (s : String)
  | dbPointer (collection : String) (id : BitVec 96)
  | minKey
  | maxKey
  | undefined
deriving Inhabited

/-- A stored document: its fields in order. -/
abbrev Document := List (String × Bson)

namespace Document

/-- Sets a field: in its place if the document has it, else at the end. -/
def set (name : String) (value : Bson) : Document → Document
  | [] => [(name, value)]
  | (k, v) :: rest => if k = name then (k, value) :: rest else (k, v) :: set name value rest

/-- The document of a list of fields; of two values for a name the later one counts, at the
place of the first. -/
def ofList (fields : List (String × Bson)) : Document :=
  fields.foldl (fun d f => set f.1 f.2 d) []

/-- The value of a field. -/
def get? : Document → String → Option Bson
  | [], _ => none
  | (k, v) :: rest, name => if k = name then some v else get? rest name

end Document

end PolicyLookup
