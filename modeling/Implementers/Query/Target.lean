import Implementers.Text.Quoted
import Implementers.Text.Segments

namespace Implementers

/-!
# Targets of a query

A query asks for the implementers of an interface given as a package name and a type name with a
dot between them.
-/

/-- Malformed input of the user. -/
inductive UsageError where
  | interfaceName (text : String)
  | outputFormat (text : String)
  deriving Repr, DecidableEq

namespace UsageError

/-- The wording of an error. -/
def message : UsageError → String
  | interfaceName text =>
      "invalid interface " ++ Text.quoted text ++
        ": must be in format packageName.interfaceName"
  | outputFormat text =>
      "output format " ++ Text.quoted text ++ " should be one of: \x7bplain,json,xml\x7d"

end UsageError

/-- The name of an interface behind the name of its package. -/
structure InterfaceName where
  package : String
  name : String
  deriving Repr, DecidableEq

namespace InterfaceName

/-- The interface name that a text gives. -/
def ofText
    (text : String) :
    Except UsageError InterfaceName :=
  match Text.segments '.' text.toList with
  | [package, name] =>
      if package.isEmpty || name.isEmpty then
        .error (.interfaceName text)
      else
        .ok ⟨String.ofList package, String.ofList name⟩
  | _ => .error (.interfaceName text)

/-- The text that gives an interface name. -/
def display
    (target : InterfaceName) :
    String :=
  target.package ++ "." ++ target.name

end InterfaceName

end Implementers
