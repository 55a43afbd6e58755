import Implementers.Report.Json

namespace Implementers.Report

/-!
# XML reports

A report as an XML document: one element for each interface, in which the interface and its
implementers have elements of the same form.  Elements stand on lines of their own, indented by two
blanks for each level, and text stands between the tags of its element.
-/

/-- An XML element as far as reports need it: it holds text or further elements. -/
inductive XmlElement where
  | text (tag : String) (content : String)
  | parent (tag : String) (children : List XmlElement)

namespace XmlElement

/-- How one character is written in XML text. -/
def escape
    (character : Char) :
    List Char :=
  if character == '<' then "&lt;".toList
  else if character == '>' then "&gt;".toList
  else if character == '&' then "&amp;".toList
  else if character == '\x27' then "&apos;".toList
  else if character == '"' then "&quot;".toList
  else [character]

/-- XML text. -/
def escaped
    (text : String) :
    String :=
  String.ofList (text.toList.flatMap escape)

/-- The tag that begins an element. -/
def openTag
    (tag : String) :
    String :=
  "<" ++ tag ++ ">"

/-- The tag that ends an element. -/
def closeTag
    (tag : String) :
    String :=
  "</" ++ tag ++ ">"

mutual

/-- The lines of an element at a level, each with the newline before it. -/
def render
    (level : Nat) :
    XmlElement → String
  | .text tag content =>
      JsonValue.newLine level ++ openTag tag ++ escaped content ++ closeTag tag
  | .parent tag children =>
      JsonValue.newLine level ++ openTag tag ++ renderAll (level + 1) children ++
        JsonValue.newLine level ++ closeTag tag

/-- The lines of neighbouring elements. -/
def renderAll
    (level : Nat) :
    List XmlElement → String
  | [] => ""
  | first :: rest => first.render level ++ renderAll level rest

end

/-- The element of a label. -/
def ofLabel
    (tag : String)
    (label : TypeLabel) :
    XmlElement :=
  .parent tag
    [ .text "Name" label.name,
      .parent "Pos"
        [ .text "Filename" label.place.fileName,
          .text "Line" (toString label.place.line),
          .text "Column" (toString label.place.column) ] ]

/-- The element of a row. -/
def ofRow
    (row : Row) :
    XmlElement :=
  .parent "Result"
    (ofLabel "Interface" row.interface :: row.implementers.map (ofLabel "Implementers"))

end XmlElement

/-- The line before the elements of an XML document. -/
def xmlDeclaration : String := "<?xml version=\"1.0\" encoding=\"UTF-8\"?>"

/-- The XML report of rows. -/
def xml
    (rows : List Row) :
    String :=
  xmlDeclaration ++ (XmlElement.parent "Results" (rows.map XmlElement.ofRow)).render 0 ++ "\n"

end Implementers.Report
