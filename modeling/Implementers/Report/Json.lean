import Implementers.Report.Basic

namespace Implementers.Report

/-!
# JSON reports

A report as a JSON document: a list of objects, one for each interface, laid out over lines that
are indented by two blanks for each level.
-/

/-- A JSON document as far as reports need it. -/
inductive JsonValue where
  | string (text : String)
  | number (value : Nat)
  | list (items : List JsonValue)
  | record (fields : List (String × JsonValue))

namespace JsonValue

/-- A digit of a control character's number. -/
def hexDigits
    (value : Nat) :
    List Char :=
  [Nat.digitChar (value / 16), Nat.digitChar (value % 16)]

/-- How one character is written inside a JSON string. -/
def escape
    (character : Char) :
    List Char :=
  if character == '"' then ['\\', '"']
  else if character == '\\' then ['\\', '\\']
  else if character == '\n' then ['\\', 'n']
  else if character == '\r' then ['\\', 'r']
  else if character == '\t' then ['\\', 't']
  else if character == '\x08' then ['\\', 'b']
  else if character == '\x0c' then ['\\', 'f']
  else if character.toNat < 0x20 then ['\\', 'u', '0', '0'] ++ hexDigits character.toNat
  else [character]

/-- A JSON string. -/
def quote
    (text : String) :
    String :=
  String.ofList ('"' :: (text.toList.flatMap escape ++ ['"']))

/-- The beginning of a line at a level. -/
def newLine
    (level : Nat) :
    String :=
  String.ofList ('\n' :: List.replicate (2 * level) ' ')

mutual

/-- The text of a document at a level. -/
def render
    (level : Nat) :
    JsonValue → String
  | .string text => quote text
  | .number value => toString value
  | .list [] => "[]"
  | .list (first :: rest) =>
      "[" ++ newLine (level + 1) ++ first.render (level + 1) ++ renderItems (level + 1) rest ++
        newLine level ++ "]"
  | .record [] => "\x7b\x7d"
  | .record ((name, first) :: rest) =>
      "\x7b" ++ newLine (level + 1) ++ quote name ++ ": " ++ first.render (level + 1) ++
        renderFields (level + 1) rest ++ newLine level ++ "\x7d"

/-- The text of the items of a list behind its first one. -/
def renderItems
    (level : Nat) :
    List JsonValue → String
  | [] => ""
  | first :: rest => "," ++ newLine level ++ first.render level ++ renderItems level rest

/-- The text of the fields of an object behind its first one. -/
def renderFields
    (level : Nat) :
    List (String × JsonValue) → String
  | [] => ""
  | (name, first) :: rest =>
      "," ++ newLine level ++ quote name ++ ": " ++ first.render level ++ renderFields level rest

end

/-- The document of a label. -/
def ofLabel
    (label : TypeLabel) :
    JsonValue :=
  .record
    [ ("Name", .string label.name),
      ("Pos", .record
        [ ("Filename", .string label.place.fileName),
          ("Line", .number label.place.line),
          ("Column", .number label.place.column) ]) ]

/-- The document of a row. -/
def ofRow
    (row : Row) :
    JsonValue :=
  .record
    [ ("Interface", ofLabel row.interface),
      ("Implementers", .list (row.implementers.map ofLabel)) ]

end JsonValue

/-- The JSON report of rows. -/
def json
    (rows : List Row) :
    String :=
  (JsonValue.list (rows.map JsonValue.ofRow)).render 0 ++ "\n"

end Implementers.Report
