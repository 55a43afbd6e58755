import Implementers.Path

namespace Implementers

/-!
# Package identities

A package is known by the unit of source files it was resolved from and by its declared name, so
two directories with packages of one name hold different packages.
-/

/-- The identity of a resolved package. -/
structure PackageId where
  unit : Path
  name : String
  deriving Repr, DecidableEq

namespace PackageId

/-- Whether two identities are of one package. -/
def same
    (left right : PackageId) :
    Bool :=
  left.unit.same right.unit && left.name == right.name

/-- Identities are ordered by unit, then by name. -/
def order
    (left right : PackageId) :
    Ordering :=
  (left.unit.order right.unit).then (compare left.name right.name)

/-- A package with the unit it comes from. -/
def display
    (package : PackageId) :
    String :=
  package.name ++ " (" ++ package.unit.text ++ ")"

/-- Whether a package is an external test package, which no other package can import. -/
def isExternalTest
    (package : PackageId) :
    Bool :=
  "_test".toList.isSuffixOf package.name.toList

end PackageId

end Implementers
