/-
  PolicyLookup.Settings.Basic — what a process is told when it starts.

  The address of the store and the database are required and may still be missing in
  `Settings`; everything else has a default.  `validate` names the first setting that makes a
  start impossible, `store` yields what a connection needs, and `limits` what queries may take.
-/

import PolicyLookup.Json.Basic
import PolicyLookup.Query.Lookup
import PolicyLookup.Text.Blank

namespace PolicyLookup

/-- The settings of a process. -/
structure Settings where
  /-- Where the store is. -/
  address : Option String
  /-- The database of all queries. -/
  database : Option String
  /-- The name under which the process shows up at the store. -/
  appName : String
  /-- Milliseconds that connecting may take. -/
  connectTimeout : Nat
  /-- Milliseconds that a query may take. -/
  queryTimeout : Nat
  /-- The most documents that a result may have. -/
  maxDocuments : Nat
deriving DecidableEq

/-- What a connection needs. -/
structure StoreSettings where
  address : String
  database : String
  appName : String
  connectTimeout : Nat
deriving DecidableEq

namespace Settings

/-- Nothing about the store is known, the rest is at its default. -/
def standard : Settings where
  address := none
  database := none
  appName := "rego-mongo-bridge"
  connectTimeout := 10000
  queryTimeout := 5000
  maxDocuments := 1000

instance : Inhabited Settings := ⟨standard⟩

/-! ## §1. Names. -/

/-- Which setting is meant. -/
inductive Field where
  | address
  | database
  | appName
  | connectTimeout
  | queryTimeout
  | maxDocuments
deriving DecidableEq

namespace Field

/-- The name of a setting in files. -/
def key : Field → String
  | address => "mongodb_uri"
  | database => "mongodb_dbname"
  | appName => "app_name"
  | connectTimeout => "connect_timeout_ms"
  | queryTimeout => "query_timeout_ms"
  | maxDocuments => "max_documents"

/-- All settings, in the order in which they are shown. -/
def all : List Field :=
  [address, database, appName, connectTimeout, queryTimeout, maxDocuments]

/-- The name of a setting in the environment. -/
def environmentName (f : Field) : String :=
  "TAUTH_" ++ String.ofList (f.key.toList.map Char.toUpper)

end Field

/-! ## §2. Checks. -/

/-- A required setting is missing. -/
def missing (f : Field) : Error :=
  .config s!"missing required setting {f.key} (env {f.environmentName})" (some f.key)

/-- A limit is zero. -/
def notPositive (f : Field) : Error := .config (f.key ++ " must be positive") (some f.key)

/-- The value of a required setting, without blanks at its ends; it must not be empty. -/
def required (f : Field) (value : Option String) : Except Error String :=
  match value.map Text.trim with
  | none => .error (missing f)
  | some text => if text.isEmpty then .error (missing f) else .ok text

/-- A limit must be positive. -/
def positive (f : Field) (value : Nat) : Except Error Unit :=
  if value = 0 then .error (notPositive f) else .ok ()

/-- Checks all settings; the first that is wrong is the error. -/
def validate (s : Settings) : Except Error Unit := do
  let _ ← required .address s.address
  let _ ← required .database s.database
  positive .connectTimeout s.connectTimeout
  positive .queryTimeout s.queryTimeout
  positive .maxDocuments s.maxDocuments

/-- What a connection needs; only the required settings are checked. -/
def store (s : Settings) : Except Error StoreSettings := do
  let address ← required .address s.address
  let database ← required .database s.database
  return ⟨address, database, s.appName, s.connectTimeout⟩

/-- What queries may take. -/
def limits (s : Settings) : QueryLimits := ⟨s.queryTimeout, s.maxDocuments⟩

/-! ## §3. Documents. -/

/-- A text that may be missing. -/
def optionalJson : Option String → Json
  | none => .null
  | some text => .str text

/-- The value of a setting. -/
def get (s : Settings) : Field → Json
  | .address => optionalJson s.address
  | .database => optionalJson s.database
  | .appName => .str s.appName
  | .connectTimeout => .int s.connectTimeout
  | .queryTimeout => .int s.queryTimeout
  | .maxDocuments => .int s.maxDocuments

/-- All settings as a document. -/
def toJson (s : Settings) : Json := .obj (Field.all.map fun f => (f.key, s.get f))

end Settings

end PolicyLookup
