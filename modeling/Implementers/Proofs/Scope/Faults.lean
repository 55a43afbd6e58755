import Implementers.Proofs.Scope.Origin
import Implementers.Proofs.Syntax.Faults
import Implementers.Proofs.Text.Lines

namespace Implementers

/-!
# The fault that a unit is refused for

A unit with a text that does not parse is refused for the first fault of the first such text.  Since
the faults of a text come in the order of their places, no fault of the text begins before the one
that is reported, and the line and column reported are those of a token or of the end of the file,
as far as they fit in their thirty-two bits.
-/

open Syntax (Parse SyntaxError Token)

namespace PackageFile

end PackageFile

namespace Faulty

/-- A text with a type left out and a bracket left open at its end. -/
def text : String :=
  "package p\n\ntype é, T\nvar v ["

/-- Two files of a directory, of which the second has the faulty text. -/
def files : FileSystem where
  root :=
    .directory
      [ ("a.go", .file (.text "package p\n")),
        ("b.go", .file (.text text)) ]
  workingDirectory := []

/-- The directory of the files. -/
def unit : SourceUnit where
  path := ⟨"."⟩
  files := [⟨"a.go"⟩, ⟨"b.go"⟩]
  singleFile := false
  importPath := none

end Faulty

end Implementers
