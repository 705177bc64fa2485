/-
  PolicyLookup.CommandLine.Run — what the program does.

  An evaluation loads and checks the settings, connects, loads the documents in their order and
  the input, and evaluates the query with the function for queries installed.  The first error
  ends it.  Nothing but the result goes to the output.
-/

import PolicyLookup.CommandLine.Arguments
import PolicyLookup.Host.Basic
import PolicyLookup.Json.Writer
import PolicyLookup.Session.World
import PolicyLookup.Settings.Source
import PolicyLookup.Text.FileName

namespace PolicyLookup.CommandLine

/-- What the program finds around it. -/
structure Machine where
  environment : List (String × String)
  /-- The texts of files. -/
  files : String → Option String
  /-- The module that the text of a policy denotes, if it is a policy. -/
  readPolicy : String → Option Policy.Module
  /-- The query that a text denotes. -/
  readQuery : String → Option Policy.Expr
  network : Address → Option DocumentStore

/-- What comes of a run. -/
inductive Outcome where
  /-- A text for the output. -/
  | shown (text : String)
  | failed (e : Error)
  | misused

/-- The exit status. -/
def Outcome.status : Outcome → Nat
  | shown _ => 0
  | failed _ => 1
  | misused => 2

/-- The text for the output. -/
def Outcome.output : Outcome → String
  | shown text => text
  | _ => ""

/-! ## §1. Help. -/

/-- The version of the program. -/
def versionText : String := "rego-mongo 0.1.0\n"

/-- The value of a variable as help shows it. -/
def shownVariable (environment : List (String × String)) (name : String) : String :=
  "[env: " ++ name ++ "=" ++ (List.lookup name environment).getD "" ++ "]"

/-- Lines as a text. -/
def ofLines (lines : List String) : String := String.join (lines.map (· ++ "\n"))

/-- Help for the program. -/
def helpText (environment : List (String × String)) : String :=
  ofLines [
    "Evaluate Rego policies that query MongoDB",
    "",
    "Usage: rego-mongo [OPTIONS] <COMMAND>",
    "",
    "Commands:",
    "  eval  Evaluate a query",
    "  help  Print this message or the help of the given subcommand(s)",
    "",
    "Options:",
    "  -c, --config <CONFIG>        Configuration file path "
      ++ shownVariable environment "CONFIG_FILE",
    "      --log-level <LOG_LEVEL>  Log level or filter directive "
      ++ shownVariable environment "LOG_LEVEL" ++ " [default: warn]",
    "      --json-logs              Enable JSON log format "
      ++ shownVariable environment "JSON_LOGS",
    "  -h, --help                   Print help",
    "  -V, --version                Print version"]

/-- Help for the command. -/
def commandHelpText : String :=
  ofLines [
    "Evaluate a query",
    "",
    "Usage: rego-mongo eval [OPTIONS] --data <DATA> <QUERY>",
    "",
    "Arguments:",
    "  <QUERY>  Rego query, e.g. `data.authz.allow`",
    "",
    "Options:",
    "  -d, --data <DATA>              Policy (.rego) or data (.json) file; repeatable",
    "  -i, --input <INPUT>            Input document",
    "      --timeout-ms <TIMEOUT_MS>  Cancel the evaluation after this many milliseconds",
    "  -h, --help                     Print help"]

/-! ## §2. Loading. -/

/-- The text of a file. -/
def readFile (m : Machine) (path : String) : Except Error String :=
  match m.files path with
  | some text => .ok text
  | none => .error Host.unreadable

/-- A file is neither a policy nor data. -/
def unknownDocument (path : String) : Error :=
  .config (path ++ ": expected a .rego policy or a .json data file") none

/-- Loads a policy or data, by the end of the file's name. -/
def loadDocument (m : Machine) (h : Host World) (path : String) : Except Error (Host World) :=
  let outcome :=
    match Text.extension? path with
    | some "rego" => h.addPolicyFile path ((m.files path).map m.readPolicy)
    | some "json" =>
      match readFile m path with
      | .error e => (.error e, h)
      | .ok text => h.addData text
    | _ => (.error (unknownDocument path), h)
  outcome.1.map fun _ => outcome.2

/-- Loads the input, if there is one. -/
def loadInput (m : Machine) (h : Host World) : Option String → Except Error (Host World)
  | none => .ok h
  | some path =>
    match readFile m path with
    | .error e => .error e
    | .ok text => ((h.setInput text).1).map fun _ => (h.setInput text).2

/-! ## §3. Evaluating. -/

/-- A world with one connector, which holds the connection that the settings ask for, and one
set of counters. -/
def connect (m : Machine) (s : StoreSettings) : Except Error World := do
  let start := World.start m.network
  let client := fun text =>
    (Address.ofText? text).map fun address =>
      (StoreRef.remote address, (start.store (.remote address)).ping)
  let (result, connector) := Connector.empty.connectTo client s.address s.database
  let _ ← result
  return { start with
    connectors := (start.connectors.add connector).2
    metrics := (start.metrics.add .zero).2 }

/-- A host with the function for queries, over the only connector and the only counters. -/
def newHost (limits : QueryLimits) : Except Error (Host World) :=
  let (result, host) := (Host.new (World.callSite 0)).register ((World.access 0 0).function limits)
  result.map fun _ => host

/-- The document of an evaluation's results. -/
def evaluate (m : Machine) (o : Options) : Except Error Json := do
  let settings ← Settings.load m.files m.environment o.config
  settings.validate
  let w ← connect m (← settings.store)
  let h ← newHost settings.limits
  let h ← o.data.foldlM (loadDocument m) h
  let h ← loadInput m h o.input
  match m.readQuery (o.query.getD "") with
  | none => throw (.evaluation .engine)
  | some query =>
    let (signal, signals) := w.signals.make
    let signals := match o.timeout with
      | some ms => signals.schedule signal (w.clock + ms)
      | none => signals
    let (result, _, _) := h.evaluate signal .plain query { w with signals := signals }
    return Host.resultsDocument query (← result)

/-- Runs the program. -/
def run (m : Machine) (arguments : List String) : Outcome :=
  match Request.ofArguments arguments m.environment with
  | .version => .shown versionText
  | .help => .shown (helpText m.environment)
  | .commandHelp => .shown commandHelpText
  | .misuse => .misused
  | .evaluate o =>
    match evaluate m o with
    | .ok document => .shown (document.pretty ++ "\n")
    | .error e => .failed e

end PolicyLookup.CommandLine
