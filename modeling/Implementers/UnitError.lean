import Implementers.Files.Fault
import Implementers.Position

namespace Implementers

/-!
# Errors of a unit

Why the source files of a unit could not be resolved.  Every cause but an unreadable file points at
a position in the source.
-/

/-- Why a unit could not be resolved. -/
inductive UnitError where
  | unreadable (path : Path) (fault : FileFault)
  | invalidSource (position : Position) (message : String)
  | undefined (position : Position) (name : String)
  | redeclared (position : Position) (name : String) (previous : Position)
  | recursiveType (position : Position) (name : String)
  | duplicateMethod (position : Position) (method : String)
  | invalidReceiver (position : Position) (name : String)
  deriving Repr, DecidableEq

namespace UnitError

/-- The position that an error points at. -/
def position? : UnitError → Option Position
  | unreadable _ _ => none
  | invalidSource position _ => some position
  | undefined position _ => some position
  | redeclared position _ _ => some position
  | recursiveType position _ => some position
  | duplicateMethod position _ => some position
  | invalidReceiver position _ => some position

/-- What an error says, apart from where it points. -/
def detail : UnitError → String
  | unreadable _ fault => fault.message
  | invalidSource _ message => message
  | undefined _ name => "undefined: " ++ name
  | redeclared _ name previous =>
      name ++ " redeclared in this block (previous declaration at " ++ previous.display ++ ")"
  | recursiveType _ name => "invalid recursive type " ++ name
  | duplicateMethod _ method => "duplicate method " ++ method
  | invalidReceiver _ name => "invalid receiver type " ++ name

/-- Where an error points, as text. -/
def place : UnitError → String
  | unreadable path _ => path.text
  | invalidSource position _ => position.display
  | undefined position _ => position.display
  | redeclared position _ _ => position.display
  | recursiveType position _ => position.display
  | duplicateMethod position _ => position.display
  | invalidReceiver position _ => position.display

/-- The wording of an error. -/
def message
    (error : UnitError) :
    String :=
  error.place ++ ": " ++ error.detail

/-- Whether an error was found before types were looked at. -/
def isParseFailure : UnitError → Bool
  | unreadable _ _ => true
  | invalidSource _ _ => true
  | _ => false

end UnitError

end Implementers
