import Implementers.Files.FileSystem

namespace Implementers

/-!
# Archives of files

An archive is one text that holds many files.  A line of the form `-- NAME --` begins the file of
that name, whose text goes on up to the next such line.  What stands before the first file is a
comment.
-/

/-- Files with their names, in the order of their places in an archive. -/
structure Archive where
  files : List (String × String)
  deriving Repr, DecidableEq

namespace Archive

/-- The lines of a text, each with the newline that ends it. -/
def lines : List Char → List (List Char)
  | [] => []
  | character :: rest =>
      if character == '\n' then
        [character] :: lines rest
      else
        match lines rest with
        | [] => [[character]]
        | first :: others => (character :: first) :: others

/-- What stands before the name in a line that begins a file. -/
def opening : List Char := ['-', '-', ' ']

/-- What stands behind the name in a line that begins a file. -/
def closing : List Char := [' ', '-', '-', '\n']

/-- The name in a line that begins a file. -/
def fileName?
    (line : List Char) :
    Option String :=
  let name := (line.drop opening.length).take (line.length - opening.length - closing.length)
  if line = opening ++ name ++ closing then some (String.ofList name) else none

/-- The text before the first line that begins a file, and the files from there on. -/
def ofLines : List (List Char) → List Char × List (String × String)
  | [] => ([], [])
  | line :: rest =>
      let (text, files) := ofLines rest
      match fileName? line with
      | some name => ([], (name, String.ofList text) :: files)
      | none => (line ++ text, files)

/-- The archive that a text holds. -/
def ofText
    (text : String) :
    Archive :=
  ⟨(ofLines (lines text.toList)).2⟩

/-- The name of the directory that an archive is unpacked into. -/
def directoryName : String := "archive"

/-- The file system whose working directory holds the files of an archive. -/
def fileSystem
    (archive : Archive) :
    FileSystem :=
  archive.files.foldl
    (fun files file => files.write ⟨file.1⟩ (.text file.2))
    (.withEmptyDirectory directoryName)

end Archive

end Implementers
