import Implementers.Syntax.Grammar

namespace Implementers.Syntax

/-!
# Parsing source text

A parse of a text is its syntax tree, whose root is a source file, and the faults found on the way
in the order in which they were found.
-/

/-- The syntax tree of a text and the faults found in the text. -/
structure Parse where
  tree : Tree
  errors : List SyntaxError
  deriving Repr

namespace Parse

/-- The cursor at the beginning of a text. -/
def startOf
    (text : String) :
    Cursor :=
  { rest := Token.ofSource text
    built := #[]
    parents := []
    errors := #[]
    sourceLength := Text.byteLength text.toList }

/-- The cursor at the beginning of a text with the root of the tree open. -/
def rootOf
    (text : String) :
    Cursor :=
  (startOf text).openAt (startOf text).mark .sourceFile

/-- The cursor at the end of a text with the root closed. -/
def endOf
    (text : String) :
    Cursor :=
  let root := rootOf text
  (Grammar.sourceFile (Grammar.typeWithin (root.rest.length + 1)) root).closeNode

/-- The parse of a text: a single tree has been built at its end. -/
def ofText
    (text : String) :
    Parse :=
  let done := endOf text
  { tree := done.built.getD 0 (.node .sourceFile ⟨0, 0⟩ [])
    errors := done.errors.toList }

/-- Whether a text parsed without a fault. -/
def succeeds
    (parse : Parse) :
    Bool :=
  parse.errors.isEmpty

end Parse

end Implementers.Syntax
