import Implementers.Files.Fault
import Implementers.Position

namespace Implementers

/-!
# Warnings

What a run passes over although it may make an answer incomplete.  A warning is shown as a message
with named fields.
-/

/-- Something that a run leaves out. -/
inductive Warning where
  | unloadedInterface (place : Position) (embedded : String) (importPath : String)
  | unpromotedMethods (place : Position) (owner field package : String)
  | incompleteInterface (interface : String)
  | unreadableModule (file : Path) (fault : FileFault)
  | missingDirective (file : Path)
  deriving Repr, DecidableEq

namespace Warning

/-- The wording of a warning. -/
def message : Warning → String
  | unloadedInterface _ _ _ =>
      "embedded interface from an unloaded package; the enclosing interface is left out of matching"
  | unpromotedMethods _ _ _ _ =>
      "methods of an embedded type from an unloaded package are not promoted"
  | incompleteInterface _ =>
      "method set is incomplete without its imported embeds; skipped"
  | unreadableModule _ _ => "unreadable go.mod ignored"
  | missingDirective _ => "go.mod without a module directive ignored"

/-- The fields of a warning with their names. -/
def fields : Warning → List (String × String)
  | unloadedInterface place embedded importPath =>
      [("at", place.display), ("embedded", embedded), ("import", importPath)]
  | unpromotedMethods place owner field package =>
      [("at", place.display), ("owner", owner), ("field", field), ("package", package)]
  | incompleteInterface interface => [("interface", interface)]
  | unreadableModule file fault => [("file", file.text), ("error", fault.message)]
  | missingDirective file => [("file", file.text)]

end Warning

end Implementers
