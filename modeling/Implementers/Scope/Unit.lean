import Implementers.Files.FileSystem
import Implementers.Scope.Package
import Implementers.SourceUnit

namespace Implementers

/-!
# The symbols of a unit

The files of a unit are read and parsed, grouped by the package that they belong to, and each
package is resolved by itself.  A file that cannot be read counts before any other error, and a
fault of syntax counts before any error of types.
-/

/-- The texts of files with their paths, unless one of them cannot be read. -/
def readFiles
    (files : FileSystem) :
    List Path → Except UnitError (List (Path × String))
  | [] => .ok []
  | path :: rest =>
      match files.read path with
      | .error fault => .error (.unreadable path fault)
      | .ok text => do
          let others ← readFiles files rest
          return (path, text) :: others

/-- A parsed source file with the name of its package. -/
structure PackageFile where
  package : String
  path : Path
  text : String
  source : Syntax.SourceFile

namespace PackageFile

/-- The parsed source file of a text; its first fault of syntax is an error. -/
def ofText
    (path : Path)
    (text : String) :
    Except UnitError PackageFile :=
  let parse := Syntax.Parse.ofText text
  let source := Syntax.SourceFile.ofTree parse.tree
  let position := (FileScope.ofSource 0 path text source).position
  match parse.errors with
  | error :: _ => .error (.invalidSource (position error.span.start) error.fault.message)
  | [] =>
      match source.package with
      | none => .error (.invalidSource (position 0) Syntax.SyntaxFault.packageClause.message)
      | some name => .ok ⟨name.text, path, text, source⟩

/-- The parsed source files of texts; the first error counts. -/
def ofTexts : List (Path × String) → Except UnitError (List PackageFile)
  | [] => .ok []
  | (path, text) :: rest => do
      let file ← ofText path text
      let others ← ofTexts rest
      return file :: others

/-- The scopes of files, numbered from an index on. -/
def scopes
    (index : Nat) :
    List PackageFile → List FileScope
  | [] => []
  | file :: rest =>
      FileScope.ofSource index file.path file.text file.source :: scopes (index + 1) rest

/-- The scopes of the files that belong to a package. -/
def scopesOf
    (files : List PackageFile)
    (package : String) :
    List FileScope :=
  scopes 0 (files.filter (·.package == package))

/-- The names of the packages that files belong to, in the order of their first occurrence. -/
def packageNames
    (files : List PackageFile) :
    List String :=
  (files.map PackageFile.package).eraseDups

end PackageFile

/-- The symbols and warnings of packages, one package after the other. -/
def resolvePackages
    (unit : Path)
    (files : List PackageFile) :
    List String → Except UnitError (List Symbol × List Warning)
  | [] => .ok ([], [])
  | name :: rest => do
      let (symbols, warnings) ← resolvePackage ⟨unit, name⟩ (PackageFile.scopesOf files name)
      let (others, further) ← resolvePackages unit files rest
      return (symbols ++ others, warnings ++ further)

/-- The symbols of a unit of source files and the warnings on the way to them. -/
def resolveUnit
    (files : FileSystem)
    (unit : SourceUnit) :
    Except UnitError (SymbolTable × List Warning) := do
  let texts ← readFiles files unit.files
  let parsed ← PackageFile.ofTexts texts
  let (symbols, warnings) ←
    resolvePackages unit.path parsed (PackageFile.packageNames parsed)
  return (⟨some unit.path, symbols⟩, warnings)

end Implementers
