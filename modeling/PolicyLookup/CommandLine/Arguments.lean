/-
  PolicyLookup.CommandLine.Arguments — what the arguments of the command line ask for.

  Switches before the command belong to the program, those after it to the command.  Arguments
  are taken from left to right, and the first one that asks for help or the version, or that is
  wrong, decides.  Some switches have variables of the environment that stand in for them.
-/

import PolicyLookup.Settings.Assignment

namespace PolicyLookup.CommandLine

/-! ## §1. Switches. -/

/-- The switches of the program and of its command. -/
inductive Switch where
  | config
  | logLevel
  | jsonLogs
  | version
  | help
  | data
  | input
  | timeout
deriving DecidableEq

namespace Switch

/-- The long name. -/
def long : Switch → String
  | config => "config"
  | logLevel => "log-level"
  | jsonLogs => "json-logs"
  | version => "version"
  | help => "help"
  | data => "data"
  | input => "input"
  | timeout => "timeout-ms"

/-- The short name, if there is one. -/
def short? : Switch → Option Char
  | config => some 'c'
  | version => some 'V'
  | help => some 'h'
  | data => some 'd'
  | input => some 'i'
  | _ => none

/-- Whether a value belongs to the switch. -/
def hasValue : Switch → Bool
  | jsonLogs => false
  | version => false
  | help => false
  | _ => true

/-- The switches of the program. -/
def ofProgram : List Switch := [config, logLevel, jsonLogs, version, help]

/-- The switches of the command. -/
def ofCommand : List Switch := [data, input, timeout, help]

end Switch

/-! ## §2. Arguments one by one. -/

/-- What an argument or two of them say. -/
inductive Token where
  | switch (s : Switch)
  | valued (s : Switch) (value : String)
  | word (text : String)
  /-- The first word, if it ends the switches, with all that follows it. -/
  | command (name : String) (rest : List String)
  | wrong

/-- A switch as it is found in one argument. -/
inductive Found where
  /-- The argument is no switch. -/
  | word
  /-- The switches end here. -/
  | terminator
  | switch (s : Switch)
  | valued (s : Switch) (value : String)
  /-- The value of the switch is the next argument. -/
  | pending (s : Switch)
  | wrong

/-- Splits a text at its first equals sign. -/
def splitValue (cs : List Char) : List Char × Option (List Char) :=
  match cs.dropWhile (· != '=') with
  | '=' :: value => (cs.takeWhile (· != '='), some value)
  | _ => (cs, none)

/-- A switch and the value that is attached to it. -/
def attach (s : Switch) (value : Option (List Char)) : Found :=
  match s.hasValue, value with
  | true, some value => .valued s (String.ofList value)
  | true, none => .pending s
  | false, none => .switch s
  | false, some _ => .wrong

/-- The value after a short name, in the same argument; an equals sign may come before it. -/
def attached : List Char → Option (List Char)
  | [] => none
  | '=' :: value => some value
  | value => some value

/-- What an argument is, given the switches that are allowed.  Short names without a value
decide at once, so nothing after them matters. -/
def find (level : List Switch) (argument : String) : Found :=
  match argument.toList with
  | ['-', '-'] => .terminator
  | '-' :: '-' :: cs =>
    let (name, value) := splitValue cs
    match level.find? fun s => s.long == String.ofList name with
    | some s => attach s value
    | none => .wrong
  | '-' :: c :: cs =>
    match level.find? fun s => s.short? = some c with
    | some s => if s.hasValue then attach s (attached cs) else .switch s
    | none => .wrong
  | _ => .word

/-- Whether an argument cannot be the value of the switch before it. -/
def isSwitchLike (argument : String) : Bool :=
  match argument.toList with
  | '-' :: _ :: _ => true
  | _ => false

/-- The meaning of arguments up to the first one that is wrong; `commands` says whether the
first word is a command. -/
def tokens (level : List Switch) (commands : Bool) : List String → List Token
  | [] => []
  | argument :: rest =>
    match find level argument with
    | .word =>
      if commands then [.command argument rest] else .word argument :: tokens level commands rest
    | .terminator => rest.map .word
    | .switch s => .switch s :: tokens level commands rest
    | .valued s value => .valued s value :: tokens level commands rest
    | .pending s =>
      match rest with
      | [] => [.wrong]
      | value :: rest =>
        if isSwitchLike value then [.wrong]
        else .valued s value :: tokens level commands rest
    | .wrong => [.wrong]

/-! ## §3. Arguments together. -/

/-- What an evaluation is to be done with. -/
structure Options where
  /-- The file with the settings. -/
  config : Option String
  logLevel : Option String
  jsonLogs : Bool
  /-- The files with policies and data, in order. -/
  data : List String
  /-- The file with the input. -/
  input : Option String
  /-- Milliseconds until the evaluation is cancelled. -/
  timeout : Option Nat
  query : Option String

namespace Options

/-- Nothing is given. -/
def empty : Options := ⟨none, none, false, [], none, none, none⟩

instance : Inhabited Options := ⟨empty⟩

/-- A value for an option that can be given once. -/
def once {α : Type} (old : Option α) (new : Option α) : Option α :=
  match old with
  | some _ => none
  | none => new

/-- The name of a file must not be empty. -/
def file? (value : String) : Option String := if value.isEmpty then none else some value

/-- Takes in the value of a switch. -/
def setValue (o : Options) (value : String) : Switch → Option Options
  | .config => (once o.config (file? value)).map fun v => { o with config := some v }
  | .logLevel => (once o.logLevel (some value)).map fun v => { o with logLevel := some v }
  | .data => (file? value).map fun v => { o with data := o.data ++ [v] }
  | .input => (once o.input (file? value)).map fun v => { o with input := some v }
  | .timeout =>
    (once o.timeout (Settings.countOfDigits? value.toList)).map fun v =>
      { o with timeout := some v }
  | _ => none

/-- Takes in what an argument says. -/
def take (o : Options) : Token → Option Options
  | .switch .jsonLogs => if o.jsonLogs then none else some { o with jsonLogs := true }
  | .valued s value => o.setValue value s
  | .word text => (once o.query (some text)).map fun q => { o with query := some q }
  | _ => none

/-- Whether everything that the command needs is there. -/
def isComplete (o : Options) : Bool := !o.data.isEmpty && o.query.isSome

end Options

/-- What the command line asks for. -/
inductive Request where
  | evaluate (o : Options)
  | version
  | help
  /-- Help for the command. -/
  | commandHelp
  /-- The arguments make no sense. -/
  | misuse

/-- The name of the command. -/
def commandName : String := "eval"

/-- What the arguments of the command ask for, after options that are known already. -/
def requestOfCommand (o : Options) : List Token → Request
  | [] => if o.isComplete then .evaluate o else .misuse
  | .switch .help :: _ => .commandHelp
  | token :: rest =>
    match o.take token with
    | some o => requestOfCommand o rest
    | none => .misuse

/-- What a request for help is about. -/
def requestOfHelp (topics : List String) : Request :=
  if topics.isEmpty then .help
  else if topics = [commandName] then .commandHelp
  else .misuse

/-- What the arguments of the program ask for. -/
def requestOfProgram (o : Options) : List Token → Request
  | [] => .misuse
  | .switch .help :: _ => .help
  | .switch .version :: _ => .version
  | .command name rest :: _ =>
    if name == commandName then requestOfCommand o (tokens Switch.ofCommand false rest)
    else if name == "help" then requestOfHelp rest
    else .misuse
  | token :: rest =>
    match o.take token with
    | some o => requestOfProgram o rest
    | none => .misuse

/-! ## §4. The environment. -/

/-- The variable that stands in for a switch. -/
def Switch.variable? : Switch → Option String
  | .config => some "CONFIG_FILE"
  | .logLevel => some "LOG_LEVEL"
  | .jsonLogs => some "JSON_LOGS"
  | _ => none

/-- A truth value. -/
def flag? : String → Option Bool
  | "true" => some true
  | "false" => some false
  | _ => none

/-- Takes in the variable of a switch, if it is set and the switch is not given. -/
def standIn (environment : List (String × String)) (o : Options) (s : Switch) : Option Options :=
  match s.variable?.bind (List.lookup · environment), s with
  | some value, .config => if o.config.isSome then some o else o.setValue value .config
  | some value, .logLevel => if o.logLevel.isSome then some o else o.setValue value .logLevel
  | some value, .jsonLogs =>
    if o.jsonLogs then some o else (flag? value).map fun b => { o with jsonLogs := b }
  | _, _ => some o

/-- What arguments ask for in an environment. -/
def Request.ofArguments (arguments : List String) (environment : List (String × String)) :
    Request :=
  match requestOfProgram .empty (tokens Switch.ofProgram true arguments) with
  | .evaluate o =>
    match Switch.ofProgram.foldlM (standIn environment) o with
    | some o => .evaluate o
    | none => .misuse
  | r => r

end PolicyLookup.CommandLine
