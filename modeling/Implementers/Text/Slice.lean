import Implementers.Text.LineIndex

namespace Implementers.Text

/-!
# Stretches of text by byte offset

A stretch between two offsets holds the characters that begin inside it.
-/

/-- The characters of a text that begin at a byte offset or later. -/
def dropBytes
    (count : Nat) :
    List Char → List Char
  | [] => []
  | character :: rest =>
      if count = 0 then character :: rest else dropBytes (count - character.utf8Size) rest

/-- The characters of a text that begin before a byte offset. -/
def takeBytes
    (count : Nat) :
    List Char → List Char
  | [] => []
  | character :: rest =>
      if count = 0 then [] else character :: takeBytes (count - character.utf8Size) rest

/-- The stretch of a text between two byte offsets. -/
def slice
    (start stop : Nat)
    (text : String) :
    String :=
  String.ofList (takeBytes (stop - start) (dropBytes start text.toList))

end Implementers.Text
