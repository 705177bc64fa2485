/-
  PolicyLookup.Store.Basic — document stores, as their clients see them.

  A store proves that it is alive and answers finds.  At any moment it is determined by how it
  would answer; what changes over time is which answers those are.
-/

import PolicyLookup.Bson.Basic
import PolicyLookup.Error

namespace PolicyLookup

/-- A request for documents of one collection. -/
structure FindRequest where
  database : String
  collection : String
  filter : Document
  /-- The most documents to return. -/
  maxDocuments : Nat
  /-- The time that the store may take, in milliseconds. -/
  timeBudget : Nat

/-- What comes of a request: an answer after some milliseconds, or never. -/
structure Reply where
  delay : Option Nat
  answer : Except StoreError (List Document)

/-- A store by its answers. -/
structure DocumentStore where
  ping : String → Except StoreError Unit
  find : FindRequest → Reply

end PolicyLookup
