/-
  PolicyLookup.Metrics — what is counted while policies are evaluated.

  Whoever reports, reports events; the metrics are the sums over the events so far.
-/

import PolicyLookup.Json.Basic
import PolicyLookup.Number.Nearest
import PolicyLookup.Value.Keyed

namespace PolicyLookup

/-- Counters over evaluations, calls and queries. -/
structure Metrics where
  /-- Queries that got past their checks. -/
  storeQueries : Nat
  /-- Those of them that brought no documents. -/
  storeFailures : Nat
  documentsReturned : Nat
  memoHits : Nat
  evaluations : Nat
  /-- Failed calls by category of their error, in ascending order of the categories. -/
  callFailures : List (String × Nat)
  /-- The time spent in queries, in whole microseconds for each query. -/
  queryMicros : Nat
deriving DecidableEq

namespace Metrics

/-- Nothing has happened yet. -/
def zero : Metrics := ⟨0, 0, 0, 0, 0, [], 0⟩

instance : Inhabited Metrics := ⟨zero⟩

/-- Something worth counting. -/
inductive Event where
  /-- A query took some nanoseconds and brought so many documents, or failed. -/
  | query (nanos : Nat) (documents : Option Nat)
  | memoHit
  | evaluation
  | callFailure (category : String)
deriving DecidableEq

/-- One more failure of the given category. -/
def countFailure (category : String) (failures : List (String × Nat)) : List (String × Nat) :=
  Keyed.insert category ((Keyed.get? failures category).getD 0 + 1) failures

/-- The metrics after an event. -/
def record (m : Metrics) : Event → Metrics
  | .query nanos documents =>
    { m with
      storeQueries := m.storeQueries + 1
      storeFailures := m.storeFailures + if documents.isNone then 1 else 0
      documentsReturned := m.documentsReturned + documents.getD 0
      queryMicros := m.queryMicros + nanos / 1000 }
  | .memoHit => { m with memoHits := m.memoHits + 1 }
  | .evaluation => { m with evaluations := m.evaluations + 1 }
  | .callFailure category => { m with callFailures := countFailure category m.callFailures }

/-- The mean time of a query in milliseconds, each step rounded to a double. -/
def averageMillis (m : Metrics) : Binary64 :=
  if m.storeQueries = 0 then .zero
  else
    let micros := (Binary64.ofRat m.queryMicros).toRat / (Binary64.ofRat m.storeQueries).toRat
    Binary64.ofRat ((Binary64.ofRat micros).toRat / 1000)

/-- The metrics as a document; the mean time comes last if it is wanted. -/
def toJson (m : Metrics) (average : Bool) : Json :=
  .obj ([("store_queries", .int m.storeQueries),
    ("store_failures", .int m.storeFailures),
    ("documents_returned", .int m.documentsReturned),
    ("memo_hits", .int m.memoHits),
    ("evaluations", .int m.evaluations),
    ("call_failures", .obj (m.callFailures.map fun (category, n) => (category, .int n)))]
    ++ if average then [("avg_query_time_ms", .float m.averageMillis)] else [])

end Metrics

end PolicyLookup
