import Implementers.Files.Walk
import Implementers.Query.Target
import Implementers.UnitError

namespace Implementers

/-!
# Errors of a query

A query fails when its input is malformed, when its root cannot be walked, when a unit cannot be
resolved, or when it is cut short.
-/

/-- Why a unit could not be resolved, with what was going on at the time. -/
inductive ResolutionError where
  | resolving (unit : Path) (cause : UnitError)
  | context (message : String) (inner : ResolutionError)
  deriving Repr, DecidableEq

namespace ResolutionError

/-- The unit that could not be resolved. -/
def unit : ResolutionError → Path
  | resolving path _ => path
  | context _ inner => inner.unit

/-- The cause at the bottom. -/
def root : ResolutionError → UnitError
  | resolving _ cause => cause
  | context _ inner => inner.root

/-- What was going on at the outermost level. -/
def message : ResolutionError → String
  | resolving path cause =>
      (if cause.isParseFailure then "failed to parse " else "type-check failed in ") ++ path.text
  | context message _ => message

/-- The wording of an error with everything below it. -/
def display : ResolutionError → String
  | resolving path cause => (resolving path cause).message ++ ": " ++ cause.message
  | context message inner => message ++ ": " ++ inner.display

/-- The error without its outermost level, if that only adds a message. -/
def inner? : ResolutionError → Option ResolutionError
  | resolving _ _ => none
  | context _ inner => some inner

end ResolutionError

/-- Why a query failed. -/
inductive QueryError where
  | walk (error : WalkError)
  | resolution (error : ResolutionError)
  | usage (error : UsageError)
  | workerPanicked
  | cancelled
  deriving Repr, DecidableEq

namespace QueryError

/-- The wording of an error. -/
def message : QueryError → String
  | walk error => error.message
  | resolution error => error.display
  | usage error => error.message
  | workerPanicked => "a collector worker panicked"
  | cancelled => "query cancelled"

end QueryError

end Implementers
