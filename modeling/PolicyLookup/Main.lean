/-
  PolicyLookup.Main — the program.

  Gathers the environment and the files that the arguments speak of, runs the program on them,
  and writes what comes of it.  Texts of policies and queries are refused and no store can be
  reached, as neither a parser nor a network is at hand.
-/

import PolicyLookup.CommandLine.Run

namespace PolicyLookup.CommandLine

/-- The variables that the program looks at. -/
def variableNames : List String :=
  Switch.ofProgram.filterMap Switch.variable?
    ++ Settings.Field.all.map Settings.Field.environmentName

/-- The files that a request may read. -/
def Request.files : Request → List String
  | .evaluate o => (o.config.map Settings.candidates).getD [] ++ o.data ++ o.input.toList
  | _ => []

/-- Looks up variables; those that are not set are left out. -/
def readVariables (names : List String) : IO (List (String × String)) :=
  names.filterMapM fun name => do return (← IO.getEnv name).map fun value => (name, value)

/-- Reads files; those that cannot be read are left out. -/
def readFiles (names : List String) : IO (List (String × String)) :=
  names.filterMapM fun (name : String) => do
    try return some (name, ← IO.FS.readFile name)
    catch _ => return none

end PolicyLookup.CommandLine

open PolicyLookup CommandLine in
/-- Runs the program on the arguments. -/
def main (arguments : List String) : IO UInt32 := do
  let environment ← readVariables variableNames
  let files ← readFiles (Request.ofArguments arguments environment).files
  let machine : Machine :=
    { environment := environment
      files := fun name => List.lookup name files
      readPolicy := fun _ => none
      readQuery := fun _ => none
      network := fun _ => none }
  let outcome := run machine arguments
  (← IO.getStdout).putStr outcome.output
  match outcome with
  | .shown _ => pure ()
  | .failed e => IO.eprintln ("error: " ++ e.message)
  | .misused => IO.eprint (helpText environment)
  return UInt32.ofNat outcome.status
