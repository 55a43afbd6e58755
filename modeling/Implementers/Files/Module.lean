import Implementers.Files.FileSystem
import Implementers.Text.Category
import Implementers.Warning

namespace Implementers

/-!
# Modules

A module is a directory with a `go.mod` file that declares the module's path.  The import path of a
directory is the path of the nearest module around it, followed by the names of the directories in
between.  Lookups are remembered for every directory on the way, also when they find nothing.
-/

/-- A module and the directory that holds it. -/
structure GoModule where
  root : Path
  path : String
  deriving Repr, DecidableEq

namespace GoModule

/-- The name of the file that declares a module. -/
def fileName : String := "go.mod"

/-- A text without the white space at its ends. -/
def trimmed
    (text : List Char) :
    List Char :=
  ((text.dropWhile Text.isBlank).reverse.dropWhile Text.isBlank).reverse

/-- A text without the double quotes at its ends. -/
def unquoted
    (text : List Char) :
    List Char :=
  ((text.dropWhile (· == '"')).reverse.dropWhile (· == '"')).reverse

/-- A line up to the slashes that begin a comment. -/
def withoutComment : List Char → List Char
  | [] => []
  | '/' :: '/' :: _ => []
  | character :: rest => character :: withoutComment rest

/-- The path that a line declares with a module directive. -/
def directive?
    (line : List Char) :
    Option String :=
  let words := trimmed (withoutComment line)
  let keyword := "module".toList
  if keyword.isPrefixOf words then
    let rest := words.drop keyword.length
    if rest.head?.any Text.isBlank then
      let path := unquoted (trimmed rest)
      if path.isEmpty then none else some (String.ofList path)
    else
      none
  else
    none

/-- The path that a module file declares with its first complete module directive. -/
def declaredPath?
    (text : String) :
    Option String :=
  (Text.segments '\n' text.toList).findSome? directive?

/-- The module that a directory holds, with a warning if its module file is of no use. -/
def load
    (files : FileSystem)
    (directory : Path) :
    Option GoModule × List Warning :=
  let file := directory.join fileName
  if files.isFile file then
    match files.read file with
    | .error fault => (none, [.unreadableModule file fault])
    | .ok text =>
        match declaredPath? text with
        | some path => (some ⟨directory, path⟩, [])
        | none => (none, [.missingDirective file])
  else
    (none, [])

/-- The names of components, if each of them is one. -/
def names? : List Component → Option (List String)
  | [] => some []
  | .normal name :: rest => (names? rest).map (name :: ·)
  | _ :: _ => none

/-- The import path of a directory inside a module. -/
def importPathOf
    (module : GoModule)
    (directory : Path) :
    Option String :=
  (directory.componentsBelow? module.root).bind fun below =>
    (names? below).map fun names =>
      names.foldl (fun path name => path ++ "/" ++ name) module.path

end GoModule

/--
The modules found so far: for the place of a directory, its names from the innermost one outwards,
the nearest module around it.
-/
abbrev ModuleCache := List (List String × Option GoModule)

namespace ModuleCache

/-- What the search for the nearest module comes to. -/
structure Search where
  found : Option GoModule
  /-- The places that the search went through before it ended. -/
  passed : List (List String)
  warnings : List Warning

/-- The path of a place whose names are listed from the innermost one outwards. -/
def pathOf
    (place : List String) :
    Path :=
  FileSystem.absolutePath place.reverse

/-- Search for the nearest module from a place outwards. -/
def search
    (cache : ModuleCache)
    (files : FileSystem) :
    List String → Search
  | [] =>
      match cache.lookup [] with
      | some known => ⟨known, [], []⟩
      | none =>
          let (module, warnings) := GoModule.load files (pathOf [])
          ⟨module, [[]], warnings⟩
  | name :: outer =>
      match cache.lookup (name :: outer) with
      | some known => ⟨known, [], []⟩
      | none =>
          match GoModule.load files (pathOf (name :: outer)) with
          | (some module, warnings) => ⟨some module, [name :: outer], warnings⟩
          | (none, warnings) =>
              let further := search cache files outer
              ⟨further.found, (name :: outer) :: further.passed, warnings ++ further.warnings⟩

/-- The import path of a directory in its nearest module, and what is known afterwards. -/
def importPath
    (cache : ModuleCache)
    (files : FileSystem)
    (directory : Path) :
    Option String × ModuleCache × List Warning :=
  match files.locate directory with
  | .error _ => (none, cache, [])
  | .ok place =>
      let search := cache.search files place.reverse
      let known := search.passed.map fun passed => (passed, search.found)
      (search.found.bind fun module => module.importPathOf (FileSystem.absolutePath place),
        known ++ cache, search.warnings)

end ModuleCache

end Implementers
