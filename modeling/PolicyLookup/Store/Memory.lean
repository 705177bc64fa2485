/-
  PolicyLookup.Store.Memory — a store that keeps its documents in memory.

  A filter asks for equality of top-level fields and nothing else.  Pings and finds can be made
  to fail, and finds to be slow.
-/

import PolicyLookup.Bson.Equality
import PolicyLookup.Store.Basic

namespace PolicyLookup

/-- The contents of a store and its disturbances. -/
structure MemoryStore where
  /-- Documents by namespace, in the order of their insertion. -/
  collections : List (String × List Document)
  pingFailure : Option String
  findFailure : Option String
  /-- How long a find takes, in milliseconds. -/
  findDelay : Nat
deriving Inhabited

namespace MemoryStore

/-- A store without documents and disturbances. -/
def empty : MemoryStore := ⟨[], none, none, 0⟩

/-- The text under which the documents of a collection are kept. -/
def namespaceOf (database collection : String) : String := database ++ "." ++ collection

/-- The documents of a namespace. -/
def documents (collections : List (String × List Document)) (key : String) : List Document :=
  match collections with
  | [] => []
  | (k, ds) :: rest => if k = key then ds else documents rest key

/-- Adds documents at the end of a namespace. -/
def append (key : String) (ds : List Document) :
    List (String × List Document) → List (String × List Document)
  | [] => [(key, ds)]
  | (k, old) :: rest => if k = key then (k, old ++ ds) :: rest else (k, old) :: append key ds rest

/-- Adds documents at the end of a collection. -/
def insert (s : MemoryStore) (database collection : String) (ds : List Document) : MemoryStore :=
  { s with collections := append (namespaceOf database collection) ds s.collections }

/-- Equality of a field with what a filter expects: integers of different widths are compared
as numbers here, and nowhere deeper. -/
def sameField (actual expected : Bson) : Bool :=
  match actual, expected with
  | .int32 a, .int64 e => decide (a.toInt = e.toInt)
  | .int64 a, .int32 e => decide (a.toInt = e.toInt)
  | a, e => a.same e

/-- Whether a document has every field of the filter, with an equal value. -/
def selects (filter d : Document) : Bool :=
  filter.all fun (name, expected) =>
    match d.get? name with
    | some actual => sameField actual expected
    | none => false

/-- The documents that a request selects, in the order of their insertion. -/
def select (s : MemoryStore) (r : FindRequest) : List Document :=
  ((documents s.collections (namespaceOf r.database r.collection)).filter
    (selects r.filter)).take r.maxDocuments

/-- The answer to a ping. -/
def ping (s : MemoryStore) : Except StoreError Unit :=
  match s.pingFailure with
  | some message => .error (.reported message)
  | none => .ok ()

/-- The answer to a find. -/
def answer (s : MemoryStore) (r : FindRequest) : Except StoreError (List Document) :=
  match s.findFailure with
  | some message => .error (.reported message)
  | none => .ok (s.select r)

/-- The store by its answers. -/
def asStore (s : MemoryStore) : DocumentStore where
  ping := fun _ => s.ping
  find := fun r => ⟨some s.findDelay, s.answer r⟩

end MemoryStore

end PolicyLookup
