import RecordQuery.Command
import RecordQuery.Json.Text
/-!
# The command line

Reads the arguments, calls the command they name, and prints what it answers. Records that are not given
with `--input` are read from the standard input, unless that is a terminal.
-/

namespace RecordQuery.CommandLine

open RecordQuery

/-- What the arguments ask for. -/
inductive Request where
  | compile (query : String) (tree : Bool)
  | run (options : Command.RunOptions) (pretty : Bool)

/-- The options of `compile`. -/
def compileOptions (query : String) : List String → Option Request
  | [] => some (.compile query false)
  | ["--tree"] => some (.compile query true)
  | _ => none

/-- The options of `run`, in any order. -/
def runOptions (options : Command.RunOptions) (pretty : Bool) : List String → Option Request
  | [] => some (.run options pretty)
  | "--input" :: text :: rest => runOptions { options with input? := some text } pretty rest
  | "-i" :: text :: rest => runOptions { options with input? := some text } pretty rest
  | "--params" :: text :: rest => runOptions { options with params? := some text } pretty rest
  | "--resolution" :: "reject" :: rest =>
    runOptions { options with settings := { options.settings with resolution := .reject } } pretty rest
  | "--resolution" :: "first" :: rest =>
    runOptions { options with settings := { options.settings with resolution := .firstResource } }
      pretty rest
  | "--skip-errors" :: rest =>
    runOptions { options with settings := { options.settings with onError := .skipRecord } } pretty rest
  | "--pretty" :: rest => runOptions options true rest
  | "-p" :: rest => runOptions options true rest
  | _ => none

/-- What a list of arguments asks for, if it is well formed. -/
def request : List String → Option Request
  | "compile" :: query :: rest => compileOptions query rest
  | "run" :: query :: rest => runOptions ⟨query, none, none, .default⟩ false rest
  | _ => none

/-- How the program is called. -/
def usage : String :=
  "usage: compile QUERY [--tree] | run QUERY [--input JSON] [--params JSON] [--pretty]" ++
    " [--resolution reject|first] [--skip-errors]"

/-- Prints an answer, or the message of an error to the error output. -/
def report (answer : Except CommandError String) : IO UInt32 :=
  match answer with
  | .ok text => do
    IO.println text
    return 0
  | .error e => do
    IO.eprintln e.message
    return 1

/-- The options with the records read from the standard input if none are given. -/
def withInput (options : Command.RunOptions) : IO Command.RunOptions := do
  let stdin ← IO.getStdin
  if options.input?.isSome || (← stdin.isTty) then return options
  else return { options with input? := some (← stdin.readToEnd) }

/-- Does what is asked for. -/
def perform : Request → IO UInt32
  | .compile query tree => report (Command.compile query tree)
  | .run options pretty => do
    let options ← withInput options
    let rows := (Command.run options).map Command.rowsToJson
    report (rows.map fun j => if pretty then j.indented "" else j.compact)

end RecordQuery.CommandLine

/-- Runs the command that the arguments name. -/
def main (args : List String) : IO UInt32 :=
  match RecordQuery.CommandLine.request args with
  | some request => RecordQuery.CommandLine.perform request
  | none => do
    IO.eprintln RecordQuery.CommandLine.usage
    return 2
