/-
  PolicyLookup.Query.Lookup — finding the documents of a collection that match a filter.

  A query checks its preconditions in a fixed order, sends one request to the store, and waits
  for the first of three events.  It answers with all matching documents or fails; a result
  that is larger than allowed is an error and never cut.  Besides its result a query yields the
  request that it sent and the event to be counted, both of which may be missing.
-/

import PolicyLookup.Bson.Decoding
import PolicyLookup.Metrics
import PolicyLookup.Query.Race
import PolicyLookup.Store.Connector
import PolicyLookup.Text.Quoted

namespace PolicyLookup

/-- What one query may take. -/
structure QueryLimits where
  /-- Milliseconds until a query is given up. -/
  timeout : Nat
  /-- The most documents that a result may have. -/
  maxDocuments : Nat
deriving DecidableEq

/-- Five seconds and a thousand documents. -/
instance : Inhabited QueryLimits := ⟨⟨5000, 1000⟩⟩

namespace Query

/-- What a query finds when it starts. -/
structure Setting where
  connection : Option (Connection DocumentStore)
  /-- Whether the signal of the evaluation has fired. -/
  hasFired : Bool
  /-- When the signal will fire, in milliseconds from the first look at the find. -/
  firesIn : Option Nat

/-- What comes of a query. -/
structure Outcome (α : Type) where
  result : Except Error α
  /-- The request that left for the store. -/
  request : Option FindRequest
  event : Option Metrics.Event
  /-- How long the query waited, in milliseconds. -/
  elapsed : Nat

namespace Outcome

variable {α β : Type}

/-- A query that ended before anything left for the store. -/
def refused (e : Error) : Outcome α := ⟨.error e, none, none, 0⟩

/-- The same outcome with another result. -/
def map (f : α → β) (o : Outcome α) : Outcome β := { o with result := o.result.map f }

end Outcome

/-! ## §1. Preconditions. -/

/-- There is no connection. -/
def notInitialized : Error :=
  .query .notInitialized "connection manager has not been initialized" none

/-- The signal has fired already. -/
def cancelledBefore : Error :=
  .query .cancelled "evaluation was canceled before the query started" none

/-- A character that no collection name may have. -/
def isForbidden (c : Char) : Bool := c = '$' || c = '\x00'

/-- A collection name that the store could never resolve is refused. -/
def checkCollection (collection : String) : Except Error Unit :=
  if collection.isEmpty then .error (.argument 1 "collection name must not be empty")
  else if collection.toList.any isForbidden then
    .error (.argument 1 ("invalid collection name " ++ Text.Quoted.quote collection))
  else .ok ()

/-- The connection to query, if every precondition holds; else the first that does not. -/
def permit (collection : String) (s : Setting) : Except Error (Connection DocumentStore) :=
  match s.connection with
  | none => .error notInitialized
  | some c =>
    match checkCollection collection with
    | .error e => .error e
    | .ok () => if s.hasFired then .error cancelledBefore else .ok c

/-! ## §2. The find. -/

/-- The largest count of documents that a request can ask for. -/
def largestCount : Nat := 18446744073709551615

/-- The request of a query asks for one document more than allowed, so that a larger result
is noticed. -/
def requestOf (limits : QueryLimits) (database collection : String) (filter : Mapping) :
    FindRequest where
  database := database
  collection := collection
  filter := Document.ofMapping filter
  maxDocuments := min (limits.maxDocuments + 1) largestCount
  timeBudget := limits.timeout

/-- The signal fired while the find was running. -/
def cancelledDuring : Error :=
  .query .cancelled "evaluation was canceled while the query was running" none

/-- The time of a find was up. -/
def tooSlow (limits : QueryLimits) (collection : String) : Error :=
  .query .deadlineExceeded s!"find on `{collection}` exceeded {limits.timeout}ms" none

/-- The store failed. -/
def failed (collection : String) (cause : StoreError) : Error :=
  .storeFailure s!"find on `{collection}` failed" cause

/-- There are more documents than allowed. -/
def tooMany (limits : QueryLimits) (collection : String) : Error :=
  .query .resultTooLarge
    s!"find on `{collection}` matched more than {limits.maxDocuments} documents" none

/-- What a find brings, given the event that ended it. -/
def received (limits : QueryLimits) (collection : String) (event : FindEvent)
    (answer : Except StoreError (List Document)) : Except Error (List Document) :=
  match event, answer with
  | .signal, _ => .error cancelledDuring
  | .deadline, _ => .error (tooSlow limits collection)
  | .answer, .error cause => .error (failed collection cause)
  | .answer, .ok ds => .ok ds

/-- The documents of an answer, provided that it is not too large. -/
def decodeResult (limits : QueryLimits) (collection : String) (ds : List Document) :
    Except Error (List Mapping) :=
  if limits.maxDocuments < ds.length then .error (tooMany limits collection)
  else Document.decodeAll ds

/-- Nanoseconds of a time in milliseconds. -/
def nanos (ms : Nat) : Nat := ms * 1000000

/-- A query over an open connection. -/
def find (limits : QueryLimits) (collection : String) (filter : Mapping)
    (c : Connection DocumentStore) (firesIn : Option Nat) : Outcome (List Mapping) :=
  let request := requestOf limits c.database collection filter
  let reply := c.store.find request
  let timeline : Timeline := ⟨firesIn, reply.delay, limits.timeout⟩
  let (event, elapsed) := timeline.decide
  let sent := if timeline.reachesStore then some request else none
  match received limits collection event reply.answer with
  | .error e => ⟨.error e, sent, some (.query (nanos elapsed) none), elapsed⟩
  | .ok ds =>
    ⟨decodeResult limits collection ds, sent, some (.query (nanos elapsed) (some ds.length)),
      elapsed⟩

/-- A query: all documents of the collection that match the filter, in the store's order. -/
def run (limits : QueryLimits) (collection : String) (filter : Mapping) (s : Setting) :
    Outcome (List Mapping) :=
  match permit collection s with
  | .error e => .refused e
  | .ok c => find limits collection filter c s.firesIn

end Query

end PolicyLookup
