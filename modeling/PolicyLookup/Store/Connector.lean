/-
  PolicyLookup.Store.Connector — the one connection of a process.

  An attempt to connect asks for a database name, checks that no connection is there yet, pings
  the store, and installs the connection; whether one is there is checked again when it is
  installed, because another attempt may have been faster.  An installed connection stays.
-/

import PolicyLookup.Store.Basic
import PolicyLookup.Text.Blank
import PolicyLookup.Text.Quoted

namespace PolicyLookup

/-- A store of kind `κ` that answered a ping, and the database to be used. -/
structure Connection (κ : Type) where
  store : κ
  database : String

/-- Holds the connection once there is one. -/
structure Connector (κ : Type) where
  connection : Option (Connection κ)

namespace Connector

variable {κ : Type}

/-- Not connected. -/
def empty : Connector κ := ⟨none⟩

instance : Inhabited (Connector κ) := ⟨empty⟩

/-- What is shown of a connection: its database, and that there is more to it. -/
def describe (database : String) : String :=
  "Connection \x7b database: " ++ Text.Quoted.quote database ++ ", .. \x7d"

/-- A setting has nothing but blanks. -/
def blank (key : String) : Error := .config (key ++ " must not be empty") (some key)

/-- There is a connection already. -/
def alreadyConnected : Error := .connection "connection manager is already initialized" none

/-- A client could not be made. -/
def noClient : Error := .connection "failed to create store client" (some .client)

/-- The store did not answer the ping. -/
def notAlive (database : String) (cause : StoreError) : Error :=
  .connection s!"liveness probe against `{database}` failed" (some cause)

/-- A setting must have a character that is not blank. -/
def require (key value : String) : Except Error Unit :=
  if Text.isBlankText value then .error (blank key) else .ok ()

/-- There must be no connection. -/
def requireUnconnected (c : Connector κ) : Except Error Unit :=
  match c.connection with
  | some _ => .error alreadyConnected
  | none => .ok ()

/-- What is checked before the store is pinged. -/
def permit (c : Connector κ) (database : String) : Except Error Unit :=
  match require "mongodb_dbname" database with
  | .error e => .error e
  | .ok () => c.requireUnconnected

/-- Installs a connection unless there is one. -/
def install (c : Connector κ) (new : Connection κ) : Except Error (Connection κ) × Connector κ :=
  match c.connection with
  | some _ => (.error alreadyConnected, c)
  | none => (.ok new, ⟨some new⟩)

/-- An attempt with a store that answers pings as given, nothing happening in between. -/
def connect (c : Connector κ) (store : κ) (ping : String → Except StoreError Unit)
    (database : String) : Except Error (Connection κ) × Connector κ :=
  match c.permit database with
  | .error e => (.error e, c)
  | .ok () =>
    match ping database with
    | .error cause => (.error (notAlive database cause), c)
    | .ok () => c.install ⟨store, database⟩

/-- An attempt by address.  `client` makes a client of an address, if it can. -/
def connectTo (c : Connector κ) (client : String → Option (κ × (String → Except StoreError Unit)))
    (address database : String) : Except Error (Connection κ) × Connector κ :=
  match require "mongodb_uri" address with
  | .error e => (.error e, c)
  | .ok () =>
    match c.permit database with
    | .error e => (.error e, c)
    | .ok () =>
      match client address with
      | none => (.error noClient, c)
      | some (store, ping) => c.connect store ping database

end Connector

end PolicyLookup
