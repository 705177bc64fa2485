/-
  PolicyLookup.Session.Basic — working on named objects, step by step.

  A session holds stores, servers, connectors, counters, signals, bridges and hosts, each kind
  under names of its own.  A name given again stands for the new object; objects made from the
  old one keep it.
-/

import PolicyLookup.Host.Basic
import PolicyLookup.Session.Scripted

namespace PolicyLookup

/-- Queries over a connector, with their counters and limits. -/
structure Bridge where
  connector : Nat
  metrics : Nat
  limits : QueryLimits

/-- A host and its counters. -/
structure HostRecord where
  host : Host World
  metrics : Nat

/-- Names of objects of one kind, with their numbers. -/
abbrev Names := List (String × Nat)

/-- The objects of a session and their names. -/
structure Session where
  world : World
  bridges : Table Bridge
  hosts : Table HostRecord
  storeNames : Names
  connectorNames : Names
  metricsNames : Names
  signalNames : Names
  /-- Who waits for a signal. -/
  waiterNames : Names
  bridgeNames : Names
  hostNames : Names
  /-- The call logs of scripted functions. -/
  functionNames : Names

/-- To where a connector is to connect. -/
inductive Target where
  | address (text : String)
  /-- A server of the session. -/
  | server (name : String)

/-- Which signal governs a step, and when it is to fire while the step runs. -/
structure Control where
  /-- The name of the signal; without one it is a new signal. -/
  signal : Option String
  /-- Milliseconds from the start of the step. -/
  firesAfter : Option Nat

/-- What can be done in a session. -/
inductive Step where
  | newStore (name : String) (contents : MemoryStore)
  | insert (store database collection : String) (documents : List Document)
  | find (store : String) (request : FindRequest)
  | ping (store database : String)
  | findCount (store : String)
  | newServer (name : String)
  | serverLog (name : String)
  | newConnector (name : String)
  | connectStore (connector store database : String)
  | connectTo (connector : String) (target : Target) (database : String)
  | status (connector : String)
  | newMetrics (name : String)
  | record (metrics : String) (event : Metrics.Event)
  | showMetrics (metrics : String) (average : Bool)
  | newSignal (name : String)
  | copySignal (name signal : String)
  | dropSignal (signal : String)
  | fire (signal : String)
  | hasFired (signal : String)
  | wait (name signal : String)
  | poll (waiter : String)
  | newBridge (name connector metrics : String) (limits : QueryLimits)
  | query (bridge collection : String) (filter : Mapping) (control : Control)
  | call (bridge : String) (args : List Value) (thread : Thread) (control : Control)
  | newHost (name metrics : String)
  | registerBridge (host bridge : String)
  | register (host : String) (signature : Signature) (behavior : Behavior)
  | signatures (host : String)
  | calls (function : String)
  | addPolicy (host path : String) (source : Option Policy.Module)
  | addPolicyFile (host path : String) (file : Option (Option Policy.Module))
  | addData (host text : String)
  | setInput (host text : String)
  | evaluate (host : String) (query : Policy.Expr) (control : Control)
  | evaluateFully (host : String) (query : Policy.Expr) (control : Control)
  | hostMetrics (host : String)

/-- The outcome of a step. -/
inductive Answer where
  | done
  | failed (e : Error)
  | storeFailed (e : StoreError)
  | flag (b : Bool)
  | count (n : Nat)
  | database (name : String)
  /-- The database of a connector that is connected. -/
  | status (database : Option String)
  | documents (ds : List Document)
  | requests (rs : List FindRequest)
  | mappings (ms : List Mapping)
  | value (v : Value)
  | signatures (texts : List String)
  /-- Calls of a function: how many, and the first call of each call's evaluation. -/
  | calls (count : Nat) (evaluations : List Nat)
  /-- The value of a query, if it is defined. -/
  | queryValue (value : Option Json)
  | document (j : Json)
  /-- There is no object of a name. -/
  | missing

namespace Session

/-- A session without objects.  It has no network: no store can be reached by address. -/
def empty : Session where
  world := .start fun _ => none
  bridges := .empty
  hosts := .empty
  storeNames := []
  connectorNames := []
  metricsNames := []
  signalNames := []
  waiterNames := []
  bridgeNames := []
  hostNames := []
  functionNames := []

instance : Inhabited Session := ⟨empty⟩

/-- Gives a name to an object. -/
def name (names : Names) (key : String) (object : Nat) : Names :=
  (key, object) :: names.filter fun e => !(e.1 == key)

/-- Takes a name away. -/
def unname (names : Names) (key : String) : Names := names.filter fun e => !(e.1 == key)

/-- A step whose error is its answer. -/
def answer {α : Type} (f : α → Answer) : Except Error α → Answer
  | .ok a => f a
  | .error e => .failed e

/-- Replaces the world. -/
def withWorld (s : Session) (w : World) : Session := { s with world := w }

/-! ## §1. Stores and connectors. -/

/-- Adds documents to a store. -/
def insert (s : Session) (store : Nat) (database collection : String) (ds : List Document) :
    Session :=
  s.withWorld
    { s.world with
      stores := s.world.stores.modify store fun r =>
        { r with contents := r.contents.insert database collection ds } }

/-- A find without a bridge. -/
def find (s : Session) (store : Nat) (r : FindRequest) : Answer × Session :=
  let reply := (s.world.store (.memory store)).find r
  let after := s.withWorld (s.world.receive r (.memory store))
  match reply.answer with
  | .ok ds => (.documents ds, after)
  | .error e => (.storeFailed e, after)

/-- The address of a server of the session. -/
def serverAddress (name : String) : Address := ⟨[.host name Address.defaultService]⟩

/-- A client of a store on the network. -/
def client (w : World) (address : Address) : StoreRef × (String → Except StoreError Unit) :=
  (.remote address, (w.store (.remote address)).ping)

/-- An attempt to connect by address. -/
def connectTo (w : World) (c : Connector StoreRef) (target : Target) (database : String) :
    Except Error (Connection StoreRef) × Connector StoreRef :=
  match target with
  | .address text =>
    c.connectTo (fun text => (Address.ofText? text).map (client w)) text database
  | .server name =>
    c.connectTo (fun _ => some (client w (serverAddress name))) ("mongodb://" ++ name) database

/-- Puts down the state of a connector. -/
def setConnector (s : Session) (connector : Nat) (c : Connector StoreRef) : Session :=
  s.withWorld { s.world with connectors := s.world.connectors.modify connector fun _ => c }

/-! ## §2. Signals that govern a step. -/

/-- The signal that governs a step, with its alarm set. -/
def govern (s : Session) (control : Control) : Option (SignalId × Session) :=
  let found :=
    match control.signal with
    | some key => (Keyed.get? s.signalNames key).map fun id => (id, s.world.signals)
    | none => some s.world.signals.make
  found.map fun (id, signals) =>
    let signals :=
      match control.firesAfter with
      | some ms => signals.schedule id (s.world.clock + ms)
      | none => signals
    (id, s.withWorld { s.world with signals := signals })

/-- The end of a governed step: alarms that have not rung are off. -/
def release (s : Session) : Session :=
  s.withWorld { s.world with signals := s.world.signals.clearAlarms }

/-! ## §3. Queries and hosts. -/

/-- A query over a bridge, by whatever way it is called. -/
def ask {α : Type} (s : Session) (bridge : Bridge) (signal : SignalId)
    (run : Query.Setting → Query.Outcome α) (f : α → Answer) : Answer × Session :=
  let access := World.access bridge.connector bridge.metrics
  let (result, w) := access.conclude (run (access.setting signal s.world)) s.world
  (answer f result, (s.withWorld w).release)

/-- Changes a host. -/
def setHost (s : Session) (host : Nat) (h : Host World) : Session :=
  { s with hosts := s.hosts.modify host fun r => { r with host := h } }

/-- Something that a host does by itself. -/
def load (s : Session) (host : Nat) (outcome : Except Error Unit × Host World) :
    Answer × Session :=
  (answer (fun _ => .done) outcome.1, s.setHost host outcome.2)

/-- Registers a scripted function; its log is new. -/
def register (s : Session) (host : Nat) (r : HostRecord) (signature : Signature)
    (behavior : Behavior) : Answer × Session :=
  let (log, calls) := s.world.calls.add []
  match r.host.register (behavior.function signature log) with
  | (.error e, h) => (.failed e, s.setHost host h)
  | (.ok (), h) =>
    let s := s.withWorld { s.world with calls := calls }
    (.done, { s.setHost host h with
      functionNames := name s.functionNames signature.name log })

/-- Evaluates a query on a host. -/
def evaluate (s : Session) (host : Nat) (r : HostRecord) (signal : SignalId)
    (query : Policy.Expr) (f : Term → Answer) : Answer × Session :=
  let (result, h, w) := r.host.evaluate signal .plain query s.world
  (answer f result, ((s.withWorld w).setHost host h).release)

/-- For each call the index of the first call with the same evaluation. -/
def firstCalls (evaluations : List Nat) : List Nat := evaluations.map (evaluations.idxOf ·)

/-! ## §4. Steps. -/

/-- Takes a step; nothing if a name stands for no object. -/
def step? (s : Session) : Step → Option (Answer × Session)
  | .newStore key contents =>
    let (i, stores) := s.world.stores.add ⟨contents, []⟩
    some (.done, { s.withWorld { s.world with stores := stores } with
      storeNames := name s.storeNames key i })
  | .insert store database collection ds => do
    let i ← Keyed.get? s.storeNames store
    return (.done, s.insert i database collection ds)
  | .find store request => do
    let i ← Keyed.get? s.storeNames store
    return s.find i request
  | .ping store database => do
    let i ← Keyed.get? s.storeNames store
    match (s.world.store (.memory i)).ping database with
    | .ok () => return (.done, s)
    | .error e => return (.storeFailed e, s)
  | .findCount store => do
    let i ← Keyed.get? s.storeNames store
    let r ← s.world.stores.get? i
    return (.count r.received.length, s)
  | .newServer _ => some (.done, s)
  | .serverLog key =>
    some (.requests ((s.world.sent.filter fun e =>
      decide (e.1 = serverAddress key)).map Prod.snd), s)
  | .newConnector key =>
    let (i, connectors) := s.world.connectors.add .empty
    some (.done, { s.withWorld { s.world with connectors := connectors } with
      connectorNames := name s.connectorNames key i })
  | .connectStore connector store database => do
    let i ← Keyed.get? s.connectorNames connector
    let c ← s.world.connectors.get? i
    let j ← Keyed.get? s.storeNames store
    let (result, c) := c.connect (.memory j) (s.world.store (.memory j)).ping database
    return (answer (fun o => .database o.database) result, s.setConnector i c)
  | .connectTo connector target database => do
    let i ← Keyed.get? s.connectorNames connector
    let c ← s.world.connectors.get? i
    let (result, c) := connectTo s.world c target database
    return (answer (fun o => .database o.database) result, s.setConnector i c)
  | .status connector => do
    let i ← Keyed.get? s.connectorNames connector
    return (.status ((s.world.connection i).map (·.database)), s)
  | .newMetrics key =>
    let (i, metrics) := s.world.metrics.add .zero
    some (.done, { s.withWorld { s.world with metrics := metrics } with
      metricsNames := name s.metricsNames key i })
  | .record metrics event => do
    let i ← Keyed.get? s.metricsNames metrics
    return (.done, s.withWorld (s.world.record i event))
  | .showMetrics metrics average => do
    let i ← Keyed.get? s.metricsNames metrics
    let m ← s.world.metrics.get? i
    return (.document (m.toJson average), s)
  | .newSignal key =>
    let (i, signals) := s.world.signals.make
    some (.done, { s.withWorld { s.world with signals := signals } with
      signalNames := name s.signalNames key i })
  | .copySignal key signal => do
    let i ← Keyed.get? s.signalNames signal
    return (.done, { s with signalNames := name s.signalNames key i })
  | .dropSignal signal =>
    some (.flag (Keyed.get? s.signalNames signal).isSome,
      { s with signalNames := unname s.signalNames signal })
  | .fire signal => do
    let i ← Keyed.get? s.signalNames signal
    return (.done, s.withWorld { s.world with signals := s.world.signals.fire i })
  | .hasFired signal => do
    let i ← Keyed.get? s.signalNames signal
    return (.flag (s.world.signals.hasFired i), s)
  | .wait key signal => do
    let i ← Keyed.get? s.signalNames signal
    return (.done, { s with waiterNames := name s.waiterNames key i })
  | .poll waiter => do
    let i ← Keyed.get? s.waiterNames waiter
    let ready := s.world.signals.hasFired i
    return (.flag ready,
      if ready then { s with waiterNames := unname s.waiterNames waiter } else s)
  | .newBridge key connector metrics limits => do
    let i ← Keyed.get? s.connectorNames connector
    let j ← Keyed.get? s.metricsNames metrics
    let (b, bridges) := s.bridges.add ⟨i, j, limits⟩
    return (.done, { s with bridges := bridges, bridgeNames := name s.bridgeNames key b })
  | .query bridge collection filter control => do
    let b ← (Keyed.get? s.bridgeNames bridge).bind s.bridges.get?
    let (signal, s) ← s.govern control
    return s.ask b signal (Query.run b.limits collection filter) .mappings
  | .call bridge args thread control => do
    let b ← (Keyed.get? s.bridgeNames bridge).bind s.bridges.get?
    let (signal, s) ← s.govern control
    return s.ask b signal (Query.call b.limits thread args) .value
  | .newHost key metrics => do
    let j ← Keyed.get? s.metricsNames metrics
    let (i, hosts) := s.hosts.add ⟨.new (World.callSite j), j⟩
    return (.done, { s with hosts := hosts, hostNames := name s.hostNames key i })
  | .registerBridge host bridge => do
    let i ← Keyed.get? s.hostNames host
    let r ← s.hosts.get? i
    let b ← (Keyed.get? s.bridgeNames bridge).bind s.bridges.get?
    return s.load i
      (r.host.register ((World.access b.connector b.metrics).function b.limits))
  | .register host signature behavior => do
    let i ← Keyed.get? s.hostNames host
    let r ← s.hosts.get? i
    return s.register i r signature behavior
  | .signatures host => do
    let r ← (Keyed.get? s.hostNames host).bind s.hosts.get?
    return (.signatures (r.host.signatures.map Signature.text), s)
  | .calls function => do
    let log ← (Keyed.get? s.functionNames function).bind s.world.calls.get?
    return (.calls log.length (firstCalls log), s)
  | .addPolicy host path source => do
    let i ← Keyed.get? s.hostNames host
    let r ← s.hosts.get? i
    return s.load i (r.host.addPolicy path source)
  | .addPolicyFile host path file => do
    let i ← Keyed.get? s.hostNames host
    let r ← s.hosts.get? i
    return s.load i (r.host.addPolicyFile path file)
  | .addData host text => do
    let i ← Keyed.get? s.hostNames host
    let r ← s.hosts.get? i
    return s.load i (r.host.addData text)
  | .setInput host text => do
    let i ← Keyed.get? s.hostNames host
    let r ← s.hosts.get? i
    return s.load i (r.host.setInput text)
  | .evaluate host query control => do
    let i ← Keyed.get? s.hostNames host
    let r ← s.hosts.get? i
    let (signal, s) ← s.govern control
    return s.evaluate i r signal query fun t => .queryValue (Host.valueDocument t)
  | .evaluateFully host query control => do
    let i ← Keyed.get? s.hostNames host
    let r ← s.hosts.get? i
    let (signal, s) ← s.govern control
    return s.evaluate i r signal query fun t => .document (Host.resultsDocument query t)
  | .hostMetrics host => do
    let r ← (Keyed.get? s.hostNames host).bind s.hosts.get?
    let m ← s.world.metrics.get? r.metrics
    return (.document (m.toJson false), s)

/-- Takes a step. -/
def step (s : Session) (step : Step) : Answer × Session :=
  (s.step? step).getD (.missing, s)

/-- Takes steps one after the other. -/
def run (s : Session) : List Step → List Answer
  | [] => []
  | next :: rest =>
    let (a, s) := s.step next
    a :: run s rest

end Session

end PolicyLookup
