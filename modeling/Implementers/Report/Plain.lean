import Implementers.Report.Basic

namespace Implementers.Report

/-!
# Plain reports

One block of lines for each interface: the type and the place of the interface, and below them the
implementers, their places padded so that the types line up through the whole report.
-/

/-- A colour or weight for text on a terminal. -/
inductive Style where
  | boldGreen
  | yellow
  deriving Repr, DecidableEq

namespace Style

/-- The control sequence that ends every style. -/
def reset : List Char := ['\x1b', '[', '0', 'm']

/-- The control sequence that begins a style. -/
def start : Style → List Char
  | boldGreen => ['\x1b', '[', '1', ';', '3', '2', 'm']
  | yellow => ['\x1b', '[', '3', '3', 'm']

/-- A text in which the style begins again wherever the text itself ends all styles. -/
def resume
    (style : Style) :
    List Char → List Char
  | '\x1b' :: '[' :: '0' :: 'm' :: rest => reset ++ style.start ++ style.resume rest
  | character :: rest => character :: style.resume rest
  | [] => []

/-- A text in a style. -/
def paint
    (style : Style)
    (text : String) :
    String :=
  String.ofList (style.start ++ style.resume text.toList ++ reset)

end Style

/-- What stands between a place and the text behind it. -/
def separator : String := ": "

/-- The place of an implementer as it begins a line. -/
def placeColumn
    (label : TypeLabel) :
    String :=
  label.place.short ++ separator

/-- The width of the column of places: the most bytes that one of them takes. -/
def columnWidth
    (rows : List Row) :
    Nat :=
  ((rows.flatMap Row.implementers).map fun label => (placeColumn label).utf8ByteSize).foldr max 0

/-- A text filled up with blanks to a number of characters. -/
def padded
    (width : Nat)
    (text : String) :
    String :=
  text ++ String.ofList (List.replicate (width - text.length) ' ')

/-- A text in a style, if the report is coloured. -/
def styled
    (color : Bool)
    (style : Style)
    (text : String) :
    String :=
  if color then style.paint text else text

/-- The line of an implementer. -/
def implementerLine
    (color : Bool)
    (width : Nat)
    (label : TypeLabel) :
    String :=
  padded width (placeColumn label) ++ styled color .yellow label.name ++ "\n"

/-- The lines of a row. -/
def block
    (color : Bool)
    (width : Nat)
    (row : Row) :
    String :=
  styled color .boldGreen row.interface.name ++ separator ++ row.interface.place.display ++ "\n" ++
    if row.implementers.isEmpty then
      "No implementing types.\n"
    else
      String.join (row.implementers.map (implementerLine color width))

/-- The plain report of rows. -/
def plain
    (color : Bool)
    (rows : List Row) :
    String :=
  String.intercalate "\n" (rows.map (block color (columnWidth rows)))

end Implementers.Report
