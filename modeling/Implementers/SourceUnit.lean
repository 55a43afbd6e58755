import Implementers.Path

namespace Implementers

/-!
# Units of source files

The source files of one directory are resolved together as one unit; a single file can be a unit of
its own.  Files are told apart by their names alone.
-/

/-- Whether a path names a source file. -/
def isSourceFile
    (path : Path) :
    Bool :=
  path.extension? == some "go"

/-- Whether a path names a test file. -/
def isTestFile
    (path : Path) :
    Bool :=
  path.fileName?.any fun name => "_test.go".toList.isSuffixOf name.toList

/-- Source files that are resolved together. -/
structure SourceUnit where
  path : Path
  files : List Path
  singleFile : Bool
  importPath : Option String
  deriving Repr, DecidableEq

namespace SourceUnit

/-- The unit of a directory, whose files are kept in path order. -/
def directory
    (path : Path)
    (files : List Path) :
    SourceUnit :=
  { path
    files := files.mergeSort Path.notAfter
    singleFile := false
    importPath := none }

/-- The unit of a file alone. -/
def single
    (file : Path) :
    SourceUnit :=
  { path := file
    files := [file]
    singleFile := true
    importPath := none }

/-- The directory that holds the files of a unit. -/
def sourceDirectory
    (unit : SourceUnit) :
    Path :=
  if unit.singleFile then
    match unit.path.parent? with
    | some parent => if parent.text.isEmpty then ⟨"."⟩ else parent
    | none => ⟨"."⟩
  else
    unit.path

end SourceUnit

end Implementers
