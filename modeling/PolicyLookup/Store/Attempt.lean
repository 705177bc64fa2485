/-
  PolicyLookup.Store.Attempt — attempts to connect that run at the same time.

  An attempt waits for its ping, and other attempts go on meanwhile.  So it is cut here into the
  turns between which others may act: the blank check, the check that no connection is there, the
  answer to the ping, the installation, and the look at what has been installed.  A contest is any
  number of attempts on one connector, each with a store and a database of its own; a move gives
  one of them a turn.
-/

import Mathlib.Logic.Function.Basic
import PolicyLookup.Store.Connector

namespace PolicyLookup

/-- How far an attempt to connect has come. -/
inductive Stage (κ : Type) where
  | begun
  /-- The name of the database is not blank. -/
  | named
  /-- There was no connection. -/
  | permitted
  /-- The store has answered the ping. -/
  | alive
  /-- The connection has been installed. -/
  | installed
  | finished (result : Except Error (Connection κ))

namespace Connector

variable {κ : Type}

/-- What has just been installed is not there. -/
def vanished : Error := .internal "connection vanished after set"

/-- The next turn of an attempt for the connection `wanted`.  `ping` is what its store answers, if
this is the turn in which it is asked. -/
def advance (c : Connector κ) (wanted : Connection κ) (ping : Except StoreError Unit) :
    Stage κ → Stage κ × Connector κ
  | .begun =>
    match require "mongodb_dbname" wanted.database with
    | .error e => (.finished (.error e), c)
    | .ok () => (.named, c)
  | .named =>
    match c.requireUnconnected with
    | .error e => (.finished (.error e), c)
    | .ok () => (.permitted, c)
  | .permitted =>
    match ping with
    | .error cause => (.finished (.error (notAlive wanted.database cause)), c)
    | .ok () => (.alive, c)
  | .alive =>
    match c.install wanted with
    | (.error e, c) => (.finished (.error e), c)
    | (.ok _, c) => (.installed, c)
  | .installed =>
    match c.connection with
    | none => (.finished (.error vanished), c)
    | some connection => (.finished (.ok connection), c)
  | .finished result => (.finished result, c)

end Connector

/-- A connector and the attempts on it, by name. -/
structure Contest (κ ι : Type) where
  connector : Connector κ
  stage : ι → Stage κ

/-- A turn of one attempt. -/
structure Move (ι : Type) where
  who : ι
  ping : Except StoreError Unit

namespace Contest

variable {κ ι : Type} [DecidableEq ι]

/-- Not connected, and nothing has been done. -/
def start : Contest κ ι := ⟨.empty, fun _ => .begun⟩

/-- The attempt of a move has its turn. -/
def step (wanted : ι → Connection κ) (s : Contest κ ι) (m : Move ι) : Contest κ ι :=
  let (stage, connector) := s.connector.advance (wanted m.who) m.ping (s.stage m.who)
  ⟨connector, Function.update s.stage m.who stage⟩

/-- Moves in their order. -/
def run (wanted : ι → Connection κ) (moves : List (Move ι)) (s : Contest κ ι) : Contest κ ι :=
  moves.foldl (step wanted) s

end Contest

end PolicyLookup
