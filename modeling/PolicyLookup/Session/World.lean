/-
  PolicyLookup.Session.World — stores, connectors, signals and counters under one clock.

  Objects are known by their numbers.  Time passes only while queries wait; signals that are to
  fire at a certain time do so when the clock gets there.
-/

import PolicyLookup.Query.Function
import PolicyLookup.Store.Address
import PolicyLookup.Store.Memory

namespace PolicyLookup

/-- Objects of one kind; the first has the number 0. -/
structure Table (α : Type) where
  entries : List α

namespace Table

variable {α : Type}

/-- No objects. -/
def empty : Table α := ⟨[]⟩

instance : Inhabited (Table α) := ⟨empty⟩

/-- Adds an object and yields its number. -/
def add (t : Table α) (a : α) : Nat × Table α := (t.entries.length, ⟨t.entries ++ [a]⟩)

/-- The object of a number. -/
def get? (t : Table α) (i : Nat) : Option α := t.entries[i]?

/-- Changes the object of a number. -/
def modify (t : Table α) (i : Nat) (f : α → α) : Table α := ⟨t.entries.modify i f⟩

end Table

/-- A store in memory and the finds that it has received. -/
structure StoreRecord where
  contents : MemoryStore
  received : List FindRequest

/-- Which store is meant. -/
inductive StoreRef where
  | memory (store : Nat)
  | remote (address : Address)
deriving DecidableEq, Inhabited

/-- Everything that can change while queries run. -/
structure World where
  /-- Milliseconds since the beginning. -/
  clock : Nat
  signals : Signals
  stores : Table StoreRecord
  /-- The stores that can be reached by address. -/
  network : Address → Option DocumentStore
  /-- The finds that went to stores on the network. -/
  sent : List (Address × FindRequest)
  connectors : Table (Connector StoreRef)
  metrics : Table Metrics
  /-- The evaluations that called a function, call by call. -/
  calls : Table (List Nat)

namespace World

/-- The beginning, on the given network. -/
def start (network : Address → Option DocumentStore) : World where
  clock := 0
  signals := .empty
  stores := .empty
  network := network
  sent := []
  connectors := .empty
  metrics := .empty
  calls := .empty

/-- A store that is not there. -/
def absentStore : DocumentStore where
  ping := fun _ => .error .client
  find := fun _ => ⟨some 0, .error .client⟩

/-- The store that is meant. -/
def store (w : World) : StoreRef → DocumentStore
  | .memory i =>
    match w.stores.get? i with
    | some r => r.contents.asStore
    | none => absentStore
  | .remote address => (w.network address).getD absentStore

/-- The largest count of documents that a store on the network understands. -/
def largestRemoteCount : Nat := 9223372036854775807

/-- Notes that a store has received a find. -/
def receive (w : World) (r : FindRequest) : StoreRef → World
  | .memory i =>
    { w with stores := w.stores.modify i fun s => { s with received := s.received ++ [r] } }
  | .remote address =>
    let request := { r with maxDocuments := min r.maxDocuments largestRemoteCount }
    { w with sent := w.sent ++ [(address, request)] }

/-- Counts an event. -/
def record (w : World) (metrics : Nat) (event : Metrics.Event) : World :=
  { w with metrics := w.metrics.modify metrics fun m => m.record event }

/-- Lets time pass. -/
def pass (w : World) (ms : Nat) : World :=
  { w with clock := w.clock + ms, signals := w.signals.ring (w.clock + ms) }

/-! ## §1. Queries. -/

/-- The connection that a connector holds. -/
def connection (w : World) (connector : Nat) : Option (Connection StoreRef) :=
  (w.connectors.get? connector).bind (·.connection)

/-- The setting of a query over a connector, under a signal. -/
def setting (w : World) (connector : Nat) (signal : SignalId) : Query.Setting where
  connection := (w.connection connector).map fun c => ⟨w.store c.store, c.database⟩
  hasFired := w.signals.hasFired signal
  firesIn := (w.signals.due? signal).map (· - w.clock)

/-- The world after a query over a connector, counted with the given counters. -/
def settle (w : World) (connector metrics : Nat) (request : Option FindRequest)
    (event : Option Metrics.Event) (elapsed : Nat) : World :=
  let received :=
    match request, w.connection connector with
    | some r, some c => w.receive r c.store
    | _, _ => w
  let counted :=
    match event with
    | some e => received.record metrics e
    | none => received
  counted.pass elapsed

/-- How queries over a connector touch the world. -/
def access (connector metrics : Nat) : Query.Access World where
  setting := fun signal w => w.setting connector signal
  settle := fun request event elapsed w => w.settle connector metrics request event elapsed

/-- How calls touch the world. -/
def callSite (metrics : Nat) : CallSite World where
  digest := Digest.Blake3.hex
  record := fun event w => w.record metrics event

end World

end PolicyLookup
