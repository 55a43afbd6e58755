import Implementers.Query.Error
import Implementers.Query.FanIn
import Implementers.Query.ImportIndex
import Implementers.Query.Matching
import Implementers.Scope.Unit

namespace Implementers

/-!
# Queries

A query walks the files below a root, gathers the symbols of all units, replaces the owners of types
from scanned packages, and finds the implementers of the target.
-/

/-- What a query asks for and how it goes about it. -/
structure Config where
  root : Path
  interface : InterfaceName
  concreteOnly : Bool := false
  walk : WalkOptions := {}
  workers : Nat := 1
  capacity : Nat := 256

namespace Config

/-- The configuration with a number of workers, which is at least one. -/
def withWorkers
    (config : Config)
    (workers : Nat) :
    Config :=
  { config with workers := max 1 workers }

end Config

/-- Whether a symbol has a name by which it can be found. -/
def Symbol.isNamed
    (symbol : Symbol) :
    Bool :=
  !symbol.name.isEmpty && symbol.name != blankName

namespace Query

/-- What becomes of gathering the symbols of one unit. -/
abbrev UnitOutcome := FanIn.Outcome Symbol ResolutionError

/-- The outcome of resolving a unit: its named symbols, or why they could not be found. -/
def unitOutcome
    (unit : SourceUnit)
    (resolved : Except UnitError (SymbolTable × List Warning)) :
    UnitOutcome :=
  match resolved with
  | .ok (table, _) => .produced (table.symbols.filter Symbol.isNamed)
  | .error cause => .failed (.resolving unit.path cause)

/-- The warnings on the way to a unit's symbols. -/
def unitWarnings : Except UnitError (SymbolTable × List Warning) → List Warning
  | .ok (_, warnings) => warnings
  | .error _ => []

/-- The universe of all units' symbols. -/
def gather
    (workers capacity : Nat)
    (cancelled : Bool)
    (outcomes : List UnitOutcome) :
    Except QueryError Universe :=
  match FanIn.run workers capacity cancelled outcomes with
  | .gathered symbols => .ok symbols
  | .failed error => .error (.resolution error)
  | .panicked => .error .workerPanicked
  | .cancelled => .error .cancelled

/-- The result of a walk; its failure is one of the query. -/
def walked
    (files : FileSystem)
    (config : Config) :
    Except QueryError (List SourceUnit × List Warning) :=
  match Walk.unitsAt files config.walk config.root with
  | .ok units => .ok units
  | .error error => .error (.walk error)

/-- The matches of a query, and the warnings on the way to them. -/
def find
    (files : FileSystem)
    (config : Config)
    (cancelled : Bool) :
    Except QueryError (List Match × List Warning) := do
  let (units, walkWarnings) ← walked files config
  let resolved := units.map fun unit => (unit, resolveUnit files unit)
  let symbols ←
    gather config.workers config.capacity cancelled
      (resolved.map fun entry => unitOutcome entry.1 entry.2)
  let localized := (ImportIndex.ofUnits units).localize symbols
  let (found, matchWarnings) := Matching.find config.concreteOnly localized config.interface
  return (found,
    walkWarnings ++ resolved.flatMap (fun entry => unitWarnings entry.2) ++ matchWarnings)

end Query

end Implementers
