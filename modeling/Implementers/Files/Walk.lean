import Implementers.Files.Module
import Implementers.SourceUnit

namespace Implementers

/-!
# Walking a file tree

A walk from a root collects the source files below it, directory by directory, and groups them into
units by the directory that holds them.  Directories are listed in the order of their names.  A link
is passed over unless links are followed; then it stands for what it leads to, and one that leads
back to a directory around it ends the walk.
-/

/-- How the entries below a root are listed. -/
structure WalkOptions where
  recursive : Bool := true
  includeTests : Bool := true
  followLinks : Bool := false
  deriving Repr, DecidableEq

/-- Why a walk failed. -/
inductive WalkError where
  | path (path : Path) (fault : FileFault)
  | notDirectory (path : Path)
  deriving Repr, DecidableEq

namespace WalkError

/-- The path at which a walk failed. -/
def location : WalkError → Path
  | .path location _ => location
  | .notDirectory location => location

/-- The wording of a failure. -/
def message : WalkError → String
  | .path location fault => location.text ++ ": " ++ fault.message
  | .notDirectory location => location.text ++ ": path must be a directory"

end WalkError

namespace Walk

/-- The files found below an entry, or why they could not be listed. -/
abbrev Listing := Except WalkError (List Path)

/-- One listing behind the other; the first failure counts. -/
def Listing.append
    (first second : Listing) :
    Listing := do
  return (← first) ++ (← second)

/-- The listings of a directory's entries, put in the order of the entries' names. -/
def inNameOrder
    (listings : List (String × Listing)) :
    Listing :=
  let sorted := listings.mergeSort fun left right => compare left.1 right.1 != .gt
  sorted.foldr (fun listing rest => Listing.append listing.2 rest) (.ok [])

/-- A directory on the way of a walk: the places of the directories around it, itself included. -/
abbrev Chain := List (List String)

/-- What to do with a directory that a link leads to, given its path, its place and its chain. -/
abbrev Jump := Path → List String → Chain → Listing

mutual

/-- The files at or below an entry of a directory. -/
def below
    (files : FileSystem)
    (options : WalkOptions)
    (jump : Jump)
    (chain : Chain)
    (path : Path)
    (place : List String) :
    Entry → Listing
  | .file _ => .ok [path]
  | .directory entries =>
      if options.recursive then
        inNameOrder (belowEach files options jump (place :: chain) path place entries)
      else
        .ok []
  | .link _ =>
      if options.followLinks then
        match files.locate path with
        | .error fault => .error (.path path fault)
        | .ok target =>
            if ((files.root.at? target).any Entry.isDirectory) then
              if chain.contains target then
                .error (.path path .linkLoop)
              else if options.recursive then
                jump path target (target :: chain)
              else
                .ok []
            else
              .ok [path]
      else
        .ok []

/-- The files at or below each entry of a directory, with the entry's name. -/
def belowEach
    (files : FileSystem)
    (options : WalkOptions)
    (jump : Jump)
    (chain : Chain)
    (path : Path)
    (place : List String) :
    List (String × Entry) → List (String × Listing)
  | [] => []
  | (name, entry) :: rest =>
      (name, below files options jump chain (path.join name) (place ++ [name]) entry) ::
        belowEach files options jump chain path place rest

end

/-- The files below a directory, with at most a given number of links to directories on the way. -/
def directory
    (files : FileSystem)
    (options : WalkOptions) :
    Nat → Jump
  | 0, path, _, _ => .error (.path path .linkLoop)
  | links + 1, path, place, chain =>
      let entries := ((files.root.at? place).map Entry.entries).getD []
      inNameOrder
        (belowEach files options (directory files options links) chain path place entries)

/--
The files below the directory at a path.  No link on the way leads to a directory that is around it,
so there are never more of them on one way than there are directories.
-/
def filesBelow
    (files : FileSystem)
    (options : WalkOptions)
    (root : Path)
    (place : List String) :
    Listing :=
  directory files options (files.root.directoryCount + 1) root place [place]

/-- Whether a file belongs to some unit. -/
def accepts
    (options : WalkOptions)
    (path : Path) :
    Bool :=
  isSourceFile path && (options.includeTests || !isTestFile path)

/-- The directory part of a file's path. -/
def directoryOf
    (root path : Path) :
    Path :=
  path.parent?.getD root

/-- The first spelling of each path of a list. -/
def distinct : List Path → List Path
  | [] => []
  | path :: rest => path :: (distinct rest).filter fun other => !path.same other

/-- The units of a list of files, one for each directory, in the order of the directories. -/
def units
    (root : Path)
    (found : List Path) :
    List SourceUnit :=
  let directories := (distinct (found.map (directoryOf root))).mergeSort Path.notAfter
  directories.map fun directory =>
    .directory directory (found.filter fun file => directory.same (directoryOf root file))

/-- The units with the import paths of the directories that hold their files. -/
def withImportPaths
    (files : FileSystem)
    (cache : ModuleCache) :
    List SourceUnit → List SourceUnit × List Warning
  | [] => ([], [])
  | unit :: rest =>
      let (importPath, known, warnings) := cache.importPath files unit.sourceDirectory
      let (others, further) := withImportPaths files known rest
      ({ unit with importPath } :: others, warnings ++ further)

/-- The units below a directory. -/
def unitsBelow
    (files : FileSystem)
    (options : WalkOptions)
    (root : Path)
    (place : List String) :
    Except WalkError (List SourceUnit × List Warning) := do
  let found ← filesBelow files options root place
  return withImportPaths files [] (units root (found.filter (accepts options)))

/-- The units at a path: those below a directory, or the unit of a single file. -/
def unitsAt
    (files : FileSystem)
    (options : WalkOptions)
    (root : Path) :
    Except WalkError (List SourceUnit × List Warning) :=
  match files.locate root with
  | .error fault => .error (.path root fault)
  | .ok place =>
      if (files.root.at? place).any Entry.isDirectory then
        unitsBelow files options root place
      else
        .ok (withImportPaths files [] [.single root])

/-- The units below a path that has to be a directory. -/
def unitsInDirectory
    (files : FileSystem)
    (options : WalkOptions)
    (root : Path) :
    Except WalkError (List SourceUnit × List Warning) :=
  match files.locate root with
  | .error fault => .error (.path root fault)
  | .ok place =>
      if (files.root.at? place).any Entry.isDirectory then
        unitsBelow files options root place
      else
        .error (.notDirectory root)

end Walk

end Implementers
