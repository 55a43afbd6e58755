import Implementers.Query.Matching

namespace Implementers

/-!
# Reports

A report shows matches by the text of the types and the places of their declarations.  Its rows are
sorted by the place and the type of the interface, and so are the implementers in each row, so that
a report does not depend on the order in which matches were found.
-/

namespace Report

/-- A place as a report shows it. -/
structure Place where
  fileName : String
  line : Nat
  column : Nat
  deriving Repr, DecidableEq

namespace Place

/-- The place of a position. -/
def ofPosition
    (position : Position) :
    Place :=
  ⟨position.file.text, position.line, position.column⟩

/-- A place in full. -/
def display
    (place : Place) :
    String :=
  Position.withPlace place.fileName place.line place.column

/-- A file name without the directories before it, whichever slash separates them. -/
def baseName
    (fileName : String) :
    String :=
  Text.lastSegment '\\' (Text.lastSegment '/' fileName)

/-- A place without the directories of its file. -/
def short
    (place : Place) :
    String :=
  Position.withPlace (baseName place.fileName) place.line place.column

/-- Places are ordered by the text of the file name, then by line, then by column. -/
def order
    (left right : Place) :
    Ordering :=
  (compare left.fileName right.fileName).then
    ((compare left.line right.line).then (compare left.column right.column))

end Place

/-- A type as a report shows it. -/
structure TypeLabel where
  name : String
  place : Place
  deriving Repr, DecidableEq

namespace TypeLabel

/-- The label of a symbol. -/
def ofSymbol
    (symbol : Symbol) :
    TypeLabel :=
  ⟨symbol.typeString, .ofPosition symbol.declaration⟩

/-- Labels are ordered by place, then by name. -/
def order
    (left right : TypeLabel) :
    Ordering :=
  (left.place.order right.place).then (compare left.name right.name)

/-- Whether a label does not come after another one. -/
def notAfter
    (left right : TypeLabel) :
    Bool :=
  left.order right != .gt

end TypeLabel

/-- One interface with its implementers. -/
structure Row where
  interface : TypeLabel
  implementers : List TypeLabel
  deriving Repr, DecidableEq

namespace Row

/-- The row of a match, its implementers sorted. -/
def ofMatch
    (found : Match) :
    Row :=
  { interface := .ofSymbol found.interface
    implementers := (found.implementers.map TypeLabel.ofSymbol).mergeSort TypeLabel.notAfter }

/-- Whether a row does not come after another one. -/
def notAfter
    (left right : Row) :
    Bool :=
  left.interface.notAfter right.interface

end Row

/-- The rows of matches, sorted. -/
def rows
    (found : List Match) :
    List Row :=
  (found.map Row.ofMatch).mergeSort Row.notAfter

end Report

end Implementers
