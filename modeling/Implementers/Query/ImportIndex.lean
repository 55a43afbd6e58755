import Implementers.SourceUnit
import Implementers.Symbol

namespace Implementers

/-!
# Import paths of scanned units

Each unit sees other packages through their import paths only.  Once all units are in, the owner of
an imported type becomes the scanned package of that path.  Of several packages with one import path
the one whose symbol came first counts; external test packages cannot be imported.
-/

/-- The import paths of units, those of later units first. -/
structure ImportIndex where
  units : List (Path × String)

namespace ImportIndex

/-- The index of units. -/
def ofUnits
    (units : List SourceUnit) :
    ImportIndex :=
  ⟨(units.filterMap fun unit => unit.importPath.map fun path => (unit.path, path)).reverse⟩

/-- The import path of a unit. -/
def importPath?
    (index : ImportIndex)
    (unit : Path) :
    Option String :=
  (index.units.find? (·.1.same unit)).map Prod.snd

/-- The package of a symbol with its import path, if it can be imported. -/
def importable?
    (index : ImportIndex)
    (symbol : Symbol) :
    Option (String × PackageId) :=
  if symbol.package.isExternalTest then
    none
  else
    (index.importPath? symbol.package.unit).map fun path => (path, symbol.package)

/-- The scanned packages by import path. -/
def packages
    (index : ImportIndex)
    (symbols : Universe) :
    List (String × PackageId) :=
  symbols.filterMap index.importable?

/-- The package scanned for an import path, by a list of packages with their import paths. -/
def scannedIn
    (packages : List (String × PackageId)) :
    ScannedPackages :=
  fun path => packages.lookup path

/-- The universe with imported owners replaced by scanned packages. -/
def localize
    (index : ImportIndex)
    (symbols : Universe) :
    Universe :=
  let packages := index.packages symbols
  symbols.map (Symbol.localize (scannedIn packages))

/-- How many symbols of a universe change when imported owners are replaced. -/
def changedCount
    (index : ImportIndex)
    (symbols : Universe) :
    Nat :=
  let packages := index.packages symbols
  (symbols.filter fun symbol => symbol.methods.mentionsScanned (scannedIn packages)).length

end ImportIndex

end Implementers
