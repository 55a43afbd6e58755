import Implementers.CommandLine.Arguments
import Implementers.Query.Run

namespace Implementers.CommandLine

/-!
# Running a command line

A command line becomes the configuration of a query, and the matches of the query become a report.
-/

/-- The configuration that arguments make, when workers are not limited otherwise. -/
def config
    (arguments : Arguments) :
    Except UsageError Config := do
  let interface ← InterfaceName.ofText arguments.interface
  let base : Config :=
    { root := arguments.path
      interface
      concreteOnly := arguments.concreteOnly
      walk :=
        { recursive := !arguments.noRecurse
          includeTests := !arguments.skipTests } }
  return match arguments.workers with
    | none => base
    | some workers => base.withWorkers workers

/-- The report of a query that is not cancelled, and the warnings on the way to it. -/
def report
    (files : FileSystem)
    (arguments : Arguments)
    (terminalColor : Bool)
    (config : Config) :
    Except QueryError (String × List Warning) := do
  let (found, warnings) ← Query.find files config false
  return (Report.render arguments.format (!arguments.noColor && terminalColor) found, warnings)

/-- What a run of the program leaves behind. -/
structure Outcome where
  output : String
  diagnostics : List String
  exitCode : Nat
  deriving Repr, DecidableEq

/-- The outcome when arguments are not accepted, or ask for no search. -/
def refusal
    (error : ArgumentError) :
    Outcome :=
  if error.exitCode = 0 then
    ⟨error.message ++ "\n", [], 0⟩
  else
    ⟨"", ["implementers: " ++ error.message], error.exitCode⟩

/-- The line that tells of a warning. -/
def warningLine
    (warning : Warning) :
    String :=
  "warning: " ++ warning.message ++
    String.join (warning.fields.map fun field => " " ++ field.1 ++ "=" ++ field.2)

/-- The outcome when a run fails: nothing is printed but the error. -/
def failure
    (message : String) :
    Outcome :=
  ⟨"", ["implementers: " ++ message], 1⟩

/-- The outcome of accepted arguments. -/
def outcome
    (files : FileSystem)
    (arguments : Arguments)
    (terminalColor : Bool) :
    Outcome :=
  match config arguments with
  | .error error => failure error.message
  | .ok config =>
      match report files arguments terminalColor config with
      | .error error => failure error.message
      | .ok (text, warnings) =>
          ⟨text, if arguments.level = .error then [] else warnings.map warningLine, 0⟩

end Implementers.CommandLine
