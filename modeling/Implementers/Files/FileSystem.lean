import Implementers.Files.Fault
import Implementers.Path
import Implementers.Text.LineIndex

namespace Implementers

/-!
# File systems

A file system is a tree of directories, files and symbolic links with a working directory in it.
Following a path goes through the directories one component after the other and replaces a link by
its target, at most forty times.  The place that a path leads to is known by its names from the
root, none of which is a link.
-/

/-- What a file holds: text, or bytes that are no text. -/
inductive Content where
  | text (text : String)
  | undecodable
  deriving Repr, DecidableEq

/-- An entry of a directory. -/
inductive Entry where
  | file (content : Content)
  | directory (entries : List (String × Entry))
  | link (target : Path)

namespace Entry

/-- The entries of a directory; other entries have none. -/
def entries : Entry → List (String × Entry)
  | .directory entries => entries
  | _ => []

/-- Whether an entry is a directory. -/
def isDirectory : Entry → Bool
  | .directory _ => true
  | _ => false

/-- The entry that a list of names leads to, without following links. -/
def at? : Entry → List String → Option Entry
  | entry, [] => some entry
  | entry, name :: rest => (entry.entries.lookup name).bind fun child => child.at? rest

/-- The list of entries with the entry of a name replaced, added or, without a new one, removed. -/
def putIn
    (name : String)
    (new : Option Entry)
    (entries : List (String × Entry)) :
    List (String × Entry) :=
  (entries.filter fun entry => entry.1 != name) ++ (new.map fun entry => (name, entry)).toList

/-- The entry with the place that a list of names leads to replaced, added or removed. -/
def put
    (new : Option Entry) :
    Entry → List String → Entry
  | entry, [] => new.getD entry
  | entry, [name] => .directory (putIn name new entry.entries)
  | entry, name :: rest =>
      match entry.entries.lookup name with
      | none => entry
      | some child => .directory (putIn name (some (put new child rest)) entry.entries)

mutual

/-- The number of directories in an entry. -/
def directoryCount : Entry → Nat
  | .directory entries => 1 + directoryCounts entries
  | _ => 0

/-- The number of directories in a list of entries. -/
def directoryCounts : List (String × Entry) → Nat
  | [] => 0
  | (_, entry) :: rest => entry.directoryCount + directoryCounts rest

end

end Entry

/-- A tree of files with a working directory. -/
structure FileSystem where
  root : Entry
  workingDirectory : List String

namespace FileSystem

/-- How many links may be followed on one path. -/
def linkLimit : Nat := 40

/-- How many bytes the name of an entry may have. -/
def nameLimit : Nat := 255

/-- Where a path leads that goes on from a place with the given segments. -/
abbrev Route := List String → List String → Except FileFault (List String)

/--
The place that the remaining segments of a path lead to from a place.  At a link the path goes on
with the link's target by another route.
-/
def followTo
    (root : Entry)
    (throughLink : Route)
    (place : List String) :
    List String → Except FileFault (List String)
  | [] => .ok place
  | segment :: rest =>
      match root.at? place with
      | none => .error .notFound
      | some here =>
          if !here.isDirectory then
            .error .notDirectory
          else if segment == "" || segment == "." then
            followTo root throughLink place rest
          else if segment == ".." then
            followTo root throughLink place.dropLast rest
          else if nameLimit < Text.byteLength segment.toList then
            .error .nameTooLong
          else
            match here.entries.lookup segment with
            | none => .error .notFound
            | some (.link target) =>
                throughLink (if target.isAbsolute then [] else place) (target.segments ++ rest)
            | some _ => followTo root throughLink (place ++ [segment]) rest

/-- The route of paths on which at most a given number of links may be followed. -/
def follow
    (root : Entry) :
    Nat → Route
  | 0 => followTo root fun _ _ => .error .tooManyLinks
  | links + 1 => followTo root (follow root links)

/-- The place that a path leads to. -/
def locate
    (files : FileSystem)
    (path : Path) :
    Except FileFault (List String) :=
  if path.text.isEmpty then
    .error .notFound
  else if path.text.toList.contains '\x00' then
    .error .nulInName
  else
    follow files.root linkLimit
      (if path.isAbsolute then [] else files.workingDirectory) path.segments

/-- The entry at a path. -/
def entry
    (files : FileSystem)
    (path : Path) :
    Except FileFault Entry := do
  let place ← files.locate path
  match files.root.at? place with
  | none => .error .notFound
  | some entry => .ok entry

/-- The text of the file at a path. -/
def read
    (files : FileSystem)
    (path : Path) :
    Except FileFault String := do
  match ← files.entry path with
  | .file (.text text) => .ok text
  | .file .undecodable => .error .undecodable
  | _ => .error .isDirectory

/-- Whether a path leads to a file. -/
def isFile
    (files : FileSystem)
    (path : Path) :
    Bool :=
  match files.entry path with
  | .ok (.file _) => true
  | _ => false

/-- The path of a place from the root. -/
def absolutePath
    (place : List String) :
    Path :=
  ⟨"/" ++ String.intercalate "/" place⟩

/-! ## Building file systems -/

/-- An empty working directory in a root directory that holds nothing else. -/
def withEmptyDirectory
    (name : String) :
    FileSystem :=
  { root := .directory [(name, .directory [])]
    workingDirectory := [name] }

/-- Put an entry into the directory at a path, if there is one. -/
def putAt
    (files : FileSystem)
    (directory : Path)
    (name : String)
    (new : Option Entry) :
    FileSystem :=
  match files.locate directory with
  | .ok place => { files with root := files.root.put new (place ++ [name]) }
  | .error _ => files

/-- Put an entry at a path whose directory exists. -/
def putPath
    (files : FileSystem)
    (path : Path)
    (new : Option Entry) :
    FileSystem :=
  match path.fileName? with
  | none => files
  | some name =>
      let directory := (path.parent?.getD ⟨""⟩)
      files.putAt (if directory.text.isEmpty then ⟨"."⟩ else directory) name new

/-- Create a directory at a path unless something is there already. -/
def makeDirectory
    (files : FileSystem)
    (path : Path) :
    FileSystem :=
  match files.locate path with
  | .ok _ => files
  | .error _ => files.putPath path (some (.directory []))

/-- Create the directories of a path from the first one on. -/
def makeDirectories
    (files : FileSystem)
    (path : Path) :
    FileSystem :=
  let segments := path.segments
  (List.range segments.length).foldl
    (fun made index =>
      made.makeDirectory ⟨String.intercalate "/" (segments.take (index + 1))⟩)
    files

/-- Create the directories that the entry at a path needs. -/
def makeParents
    (files : FileSystem)
    (path : Path) :
    FileSystem :=
  match path.parent? with
  | none => files
  | some directory => files.makeDirectories directory

/-- Write a file and the directories that it needs; a directory stays as it is. -/
def write
    (files : FileSystem)
    (path : Path)
    (content : Content) :
    FileSystem :=
  let made := files.makeParents path
  match made.locate path with
  | .error _ => made.putPath path (some (.file content))
  | .ok place =>
      if (made.root.at? place).any Entry.isDirectory then
        made
      else
        { made with root := made.root.put (some (.file content)) place }

/-- Create a link and the directories that it needs. -/
def link
    (files : FileSystem)
    (path target : Path) :
    FileSystem :=
  (files.makeParents path).putPath path (some (.link target))

/-- Remove the entry at a path. -/
def remove
    (files : FileSystem)
    (path : Path) :
    FileSystem :=
  files.putPath path none

end FileSystem

end Implementers
