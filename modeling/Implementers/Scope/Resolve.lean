import Implementers.Scope.Basic
import Implementers.Warning

namespace Implementers

/-!
# Resolving names while looking into declarations

Looking into a declaration may lead to further declarations and back to itself.  The state of a
resolution remembers which declarations are being looked into, so that a way back is found out, and
what has been found underneath a name, so that it is found only once.
-/

/-- What a resolution remembers. -/
structure ScopeState where
  /-- What was found underneath the declared names. -/
  finished : List (String × Underlying)
  /-- The declared names whose underlying type is being looked for. -/
  inProgress : List String
  /-- The aliases whose right-hand side is being looked into, the innermost one first. -/
  expanding : List String
  warnings : List Warning

namespace ScopeState

/-- The state before anything is resolved. -/
def initial : ScopeState :=
  ⟨[], [], [], []⟩

end ScopeState

/-- A resolution: it answers or fails, and leaves a state behind in both cases. -/
def Resolve (α : Type) : Type :=
  ScopeState → Except UnitError α × ScopeState

namespace Resolve

/-- The resolution that answers without looking at anything. -/
def answer
    (value : α) :
    Resolve α :=
  fun state => (.ok value, state)

/-- The resolution that fails. -/
def fail
    (error : UnitError) :
    Resolve α :=
  fun state => (.error error, state)

/-- One resolution after the other; the first failure counts. -/
def andThen
    (first : Resolve α)
    (next : α → Resolve β) :
    Resolve β :=
  fun state =>
    match first state with
    | (.ok value, after) => next value after
    | (.error error, after) => (.error error, after)

instance : Monad Resolve where
  pure := answer
  bind := andThen

/-- The resolution that answers what is known already. -/
def ofExcept : Except UnitError α → Resolve α
  | .ok value => answer value
  | .error error => fail error

/-- Note a warning. -/
def warn
    (warning : Warning) :
    Resolve Unit :=
  fun state => (.ok (), { state with warnings := warning :: state.warnings })

/-- Look into the right-hand side of an alias, unless that is going on already. -/
def expanding
    (decl : TypeDecl)
    (inside : Resolve α) :
    Resolve α :=
  fun state =>
    if state.expanding.contains decl.name then
      (.error decl.recursive, state)
    else
      let (answer, after) := inside { state with expanding := decl.name :: state.expanding }
      (answer, { after with expanding := after.expanding.tail })

/--
Look for what is underneath a declared name, unless it was found before.  While the search is going
on, a way back to the name is an error; afterwards an answer is remembered.
-/
def finding
    (decl : TypeDecl)
    (inside : Resolve Underlying) :
    Resolve Underlying :=
  fun state =>
    match state.finished.lookup decl.name with
    | some found => (.ok found, state)
    | none =>
        if state.inProgress.contains decl.name then
          (.error decl.recursive, state)
        else
          match inside { state with inProgress := decl.name :: state.inProgress } with
          | (.ok found, after) =>
              (.ok found,
                { after with
                  finished := (decl.name, found) :: after.finished
                  inProgress := after.inProgress.erase decl.name })
          | (.error error, after) =>
              (.error error, { after with inProgress := after.inProgress.erase decl.name })

end Resolve

end Implementers
