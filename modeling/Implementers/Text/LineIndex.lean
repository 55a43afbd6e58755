namespace Implementers.Text

/-!
# Lines and columns

Offsets count bytes from the start of a text, which has fewer than 2 ^ 32 of them.  A line starts at
the beginning of the text and after every newline; lines and columns count from one, and columns
count bytes.  Both are numbers of thirty-two bits, and they wrap around where one more does not fit.
-/

/-- The number of bytes that a list of characters takes. -/
def byteLength : List Char → Nat
  | [] => 0
  | character :: rest => character.utf8Size + byteLength rest

/-- The offsets after the newlines of a text that begins at `offset`. -/
def startsAfterNewlines
    (offset : Nat) :
    List Char → List Nat
  | [] => []
  | character :: rest =>
      let next := offset + character.utf8Size
      if character == '\n' then
        next :: startsAfterNewlines next rest
      else
        startsAfterNewlines next rest

/-- One more than a number, in thirty-two bits, where zero follows the greatest number. -/
def nextWord
    (number : Nat) :
    Nat :=
  (number + 1) % UInt32.size

/-- The offsets at which the lines of a text start, in increasing order. -/
structure LineIndex where
  starts : List Nat
  deriving Repr, DecidableEq

namespace LineIndex

/-- The line index of a text. -/
def ofText
    (text : String) :
    LineIndex :=
  ⟨0 :: startsAfterNewlines 0 text.toList⟩

/-- The number of lines, the one after a final newline included. -/
def lineCount
    (index : LineIndex) :
    Nat :=
  index.starts.length

/--
The line that an offset is on, which is the last one that starts at or before it, and the distance
from that start, both counted from zero.
-/
def reach
    (index : LineIndex)
    (offset : Nat) :
    Nat × Nat :=
  let reached := index.starts.takeWhile (· ≤ offset)
  (reached.length - 1, offset - reached.getLast?.getD 0)

/-- The line and column of an offset, counted from one. -/
def lineColumn
    (index : LineIndex)
    (offset : Nat) :
    Nat × Nat :=
  let (line, column) := index.reach offset
  (nextWord line, nextWord column)

end LineIndex

end Implementers.Text
