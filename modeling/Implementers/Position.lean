import Implementers.Path

namespace Implementers

/-!
# Positions in source files

A position names a file and a line and a column in it, both counted from one.
-/

/-- A place in a source file. -/
structure Position where
  file : Path
  line : Nat
  column : Nat
  deriving Repr, DecidableEq

namespace Position

/-- A line and a column behind a file's name. -/
def withPlace
    (file : String)
    (line column : Nat) :
    String :=
  file ++ ":" ++ toString line ++ ":" ++ toString column

/-- A position in full. -/
def display
    (position : Position) :
    String :=
  withPlace position.file.text position.line position.column

/-- The name of the position's file without its directories. -/
def fileName
    (position : Position) :
    String :=
  position.file.fileName?.getD position.file.text

/-- A position without the directories of its file. -/
def short
    (position : Position) :
    String :=
  withPlace position.fileName position.line position.column

/-- Whether two positions are the same place, whatever the spelling of the file. -/
def same
    (left right : Position) :
    Bool :=
  left.file.same right.file && left.line == right.line && left.column == right.column

/-- Positions are ordered by file, then by line, then by column. -/
def order
    (left right : Position) :
    Ordering :=
  (left.file.order right.file).then
    ((compare left.line right.line).then (compare left.column right.column))

end Position

end Implementers
