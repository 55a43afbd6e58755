import Implementers.Report.Format

namespace Implementers

/-!
# Arguments of the command line

The arguments name a path to search and an interface, and how the search and its report are to be.
An option takes its value from the rest of its own argument or from the next one; flags with a
single letter can be written together.  An option that waits for its value is settled when the next
option comes, and the first fault found on the way counts.
-/

namespace CommandLine

/-- An option that takes a value. -/
inductive ValueOption where
  | path
  | interface
  | format
  | workers
  deriving Repr, DecidableEq

/-- An option without a value. -/
inductive Flag where
  | concreteOnly
  | noColor
  | noRecurse
  | skipTests
  | verbose
  | quiet
  | help
  | version
  deriving Repr, DecidableEq

/-- An option of either sort. -/
inductive AnyOption where
  | value (option : ValueOption)
  | flag (flag : Flag)
  deriving Repr, DecidableEq

/-- Why arguments are not accepted, or what they ask for instead of a search. -/
inductive ArgumentError where
  | unknownArgument
  | invalidValue
  | valueValidation
  | missingRequired
  | repeatedOption
  | unneededValue
  | displayHelp
  | displayVersion
  deriving Repr, DecidableEq

namespace ArgumentError

/-- The exit code that goes with an error. -/
def exitCode : ArgumentError → Nat
  | displayHelp => 0
  | displayVersion => 0
  | _ => 2

/-- What a user is told about an error, or what the user asked for. -/
def message : ArgumentError → String
  | unknownArgument => "unexpected argument"
  | invalidValue => "an option lacks its value or cannot have the given one"
  | valueValidation => "the number of workers is no number"
  | missingRequired => "a path and an interface are required"
  | repeatedOption => "an option is given twice"
  | unneededValue => "an option is given a value but takes none"
  | displayHelp =>
      "usage: implementers --path PATH --interface PACKAGE.NAME [--format plain|json|xml] " ++
        "[--concrete-only] [--no-color] [--no-recurse] [--skip-tests] [--workers N] [-v] [-q]"
  | displayVersion => "implementers 0.1.0"

end ArgumentError

/-- The option of a long name. -/
def longOption? : String → Option AnyOption
  | "path" => some (.value .path)
  | "interface" => some (.value .interface)
  | "format" => some (.value .format)
  | "workers" => some (.value .workers)
  | "concrete-only" => some (.flag .concreteOnly)
  | "no-color" => some (.flag .noColor)
  | "no-recurse" => some (.flag .noRecurse)
  | "skip-tests" => some (.flag .skipTests)
  | "verbose" => some (.flag .verbose)
  | "quiet" => some (.flag .quiet)
  | "help" => some (.flag .help)
  | "version" => some (.flag .version)
  | _ => none

/-- The option of a letter. -/
def shortOption? : Char → Option AnyOption
  | 'p' => some (.value .path)
  | 'i' => some (.value .interface)
  | 'f' => some (.value .format)
  | 'v' => some (.flag .verbose)
  | 'q' => some (.flag .quiet)
  | 'h' => some (.flag .help)
  | 'V' => some (.flag .version)
  | _ => none

/-- How much a run tells about itself. -/
inductive Level where
  | error
  | warn
  | info
  | debug
  | trace
  deriving Repr, DecidableEq

namespace Level

/-- The name of a level. -/
def name : Level → String
  | error => "error"
  | warn => "warn"
  | info => "info"
  | debug => "debug"
  | trace => "trace"

end Level

/-- The options that were given so far. -/
structure Given where
  path : Option Path := none
  interface : Option String := none
  format : Option Report.Format := none
  workers : Option Nat := none
  concreteOnly : Bool := false
  noColor : Bool := false
  noRecurse : Bool := false
  skipTests : Bool := false
  verbose : Nat := 0
  quiet : Nat := 0
  deriving Repr

/-- The largest number of workers that can be asked for. -/
def workersLimit : Nat := 0xFFFFFFFFFFFFFFFF

/-- How often a repeated flag counts at most. -/
def countLimit : Nat := 255

/-- The number that decimal digits make. -/
def numberOf
    (digits : List Char) :
    Nat :=
  digits.foldl (fun number digit => 10 * number + (digit.toNat - '0'.toNat)) 0

/-- The number that a text gives: decimal digits behind an optional plus sign. -/
def number?
    (text : String) :
    Option Nat :=
  let digits :=
    match text.toList with
    | '+' :: rest => rest
    | all => all
  if digits.isEmpty || !digits.all Char.isDigit then
    none
  else
    let number := numberOf digits
    if number ≤ workersLimit then some number else none

namespace Given

/-- The options with a value given for one of them, which must not have one yet. -/
def assign
    (given : Given)
    (option : ValueOption)
    (value : String) :
    Except ArgumentError Given :=
  match option with
  | .path =>
      if given.path.isSome then .error .repeatedOption
      else if value.isEmpty then .error .invalidValue
      else .ok { given with path := some ⟨value⟩ }
  | .interface =>
      if given.interface.isSome then .error .repeatedOption
      else .ok { given with interface := some value }
  | .format =>
      if given.format.isSome then
        .error .repeatedOption
      else
        match Report.Format.ofName? value with
        | none => .error .invalidValue
        | some format => .ok { given with format := some format }
  | .workers =>
      if given.workers.isSome then
        .error .repeatedOption
      else
        match number? value with
        | none => .error .valueValidation
        | some workers => .ok { given with workers := some workers }

/-- The options with a flag set; flags other than counters can be set once. -/
def set
    (given : Given) :
    Flag → Except ArgumentError Given
  | .concreteOnly =>
      if given.concreteOnly then .error .repeatedOption
      else .ok { given with concreteOnly := true }
  | .noColor =>
      if given.noColor then .error .repeatedOption else .ok { given with noColor := true }
  | .noRecurse =>
      if given.noRecurse then .error .repeatedOption else .ok { given with noRecurse := true }
  | .skipTests =>
      if given.skipTests then .error .repeatedOption else .ok { given with skipTests := true }
  | .verbose => .ok { given with verbose := min countLimit (given.verbose + 1), quiet := 0 }
  | .quiet => .ok { given with quiet := min countLimit (given.quiet + 1), verbose := 0 }
  | .help => .error .displayHelp
  | .version => .error .displayVersion

end Given

/-- The options that were given, and one that still waits to be settled. -/
structure Progress where
  given : Given
  pending : Option (ValueOption × Option String)
  deriving Repr

namespace Progress

/-- Settle the waiting option. -/
def settle
    (progress : Progress) :
    Except ArgumentError Given :=
  match progress.pending with
  | none => .ok progress.given
  | some (_, none) => .error .invalidValue
  | some (option, some value) => progress.given.assign option value

/-- Give an option its value at once. -/
def attach
    (progress : Progress)
    (option : ValueOption)
    (value : String) :
    Except ArgumentError Progress := do
  let given ← progress.settle
  return ⟨← given.assign option value, none⟩

/-- Begin an option whose value is to come. -/
def await
    (progress : Progress)
    (option : ValueOption) :
    Except ArgumentError Progress := do
  return ⟨← progress.settle, some (option, none)⟩

/-- Set a flag. -/
def flag
    (progress : Progress)
    (flag : Flag) :
    Except ArgumentError Progress := do
  let given ← progress.settle
  return ⟨← given.set flag, none⟩

/-- Take the letters of an argument behind its dash. -/
def letters
    (progress : Progress) :
    List Char → Except ArgumentError Progress
  | [] => .ok progress
  | letter :: rest =>
      match shortOption? letter with
      | none => .error .unknownArgument
      | some (.flag flag) =>
          match progress.flag flag with
          | .ok next => next.letters rest
          | .error error => .error error
      | some (.value option) =>
          match rest with
          | [] => progress.await option
          | '=' :: value => progress.attach option (String.ofList value)
          | value => progress.attach option (String.ofList value)

/-- Take a long option, with the value behind its equals sign if it has one. -/
def long
    (progress : Progress)
    (name : String)
    (value : Option String) :
    Except ArgumentError Progress :=
  match longOption? name, value with
  | none, _ => .error .unknownArgument
  | some (.flag _), some _ => .error .unneededValue
  | some (.flag flag), none => progress.flag flag
  | some (.value option), some value => progress.attach option value
  | some (.value option), none => progress.await option

/-- Take an argument that is no option: a value that was waited for, or nothing that is known. -/
def value
    (progress : Progress)
    (text : String) :
    Except ArgumentError Progress :=
  match progress.pending with
  | some (option, none) => .ok { progress with pending := some (option, some text) }
  | _ => .error .unknownArgument

end Progress

/-- The parts of a long option before and behind its first equals sign. -/
def splitEquals : List Char → List Char × Option (List Char)
  | [] => ([], none)
  | '=' :: rest => ([], some rest)
  | character :: rest =>
      let (name, value) := splitEquals rest
      (character :: name, value)

/-- Take all arguments from left to right. -/
def takeAll
    (progress : Progress) :
    List String → Except ArgumentError Progress
  | [] => .ok progress
  | argument :: rest =>
      match argument.toList with
      | ['-', '-'] =>
          match rest with
          | [] => .ok progress
          | _ :: _ => .error .unknownArgument
      | '-' :: '-' :: text =>
          let (name, value) := splitEquals text
          match progress.long (String.ofList name) (value.map String.ofList) with
          | .ok next => takeAll next rest
          | .error error => .error error
      | '-' :: letter :: letters =>
          match progress.letters (letter :: letters) with
          | .ok next => takeAll next rest
          | .error error => .error error
      | _ =>
          match progress.value argument with
          | .ok next => takeAll next rest
          | .error error => .error error

/-- What a run is asked to do. -/
structure Arguments where
  path : Path
  interface : String
  format : Report.Format
  concreteOnly : Bool
  noColor : Bool
  noRecurse : Bool
  skipTests : Bool
  workers : Option Nat
  verbose : Nat
  quiet : Nat
  deriving Repr

namespace Arguments

/-- The arguments that options make; a path and an interface are required. -/
def ofGiven
    (given : Given) :
    Except ArgumentError Arguments :=
  match given.path, given.interface with
  | some path, some interface =>
      .ok
        { path
          interface
          format := given.format.getD .plain
          concreteOnly := given.concreteOnly
          noColor := given.noColor
          noRecurse := given.noRecurse
          skipTests := given.skipTests
          workers := given.workers
          verbose := given.verbose
          quiet := given.quiet }
  | _, _ => .error .missingRequired

/-- The arguments that the words of a command line make. -/
def ofWords
    (words : List String) :
    Except ArgumentError Arguments := do
  let progress ← takeAll ⟨{}, none⟩ words
  ofGiven (← progress.settle)

/-- How much the run is to tell about itself. -/
def level
    (arguments : Arguments) :
    Level :=
  if 0 < arguments.quiet then
    .error
  else
    match arguments.verbose with
    | 0 => .warn
    | 1 => .info
    | 2 => .debug
    | _ => .trace

end Arguments

end CommandLine

end Implementers
