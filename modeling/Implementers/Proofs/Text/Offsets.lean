import Implementers.Proofs.Text.Bisection
import Implementers.Proofs.Text.LineStarts
import Mathlib.Data.Prod.Lex
import Mathlib.Order.Interval.Set.Defs
import Mathlib.Order.Monotone.Basic

namespace Implementers.Text

/-!
# Offsets and places

Every offset of a text, also one inside a character, has a line and a column: the line is one more
than the newline bytes in front of it, and the column is one more than the bytes since the last of
them.  A search by halving among the starts of lines finds both, and nothing that it subtracts is
greater than what it is subtracted from.  Places are in the order of their offsets.

In thirty-two bits one of the two numbers is lost at one place, and only there: at the end of a text
of 2 ^ 32 - 1 bytes none of which is a newline, or all of which are.
-/

/-! ## Bytes as pieces -/

/-- Whether a line and a column are numbers of thirty-two bits. -/
def Fits :
    Nat × Nat → Prop
  | (line, column) => line < UInt32.size ∧ column < UInt32.size

instance (place : Nat × Nat) : Decidable (Fits place) :=
  inferInstanceAs (Decidable (place.1 < UInt32.size ∧ place.2 < UInt32.size))

namespace Commented

/-- A text with a letter of two bytes in its first line. -/
def text : String :=
  "// é\npackage p\n"

end Commented

namespace Unbroken

/-- A text of letters in one line. -/
def text
    (length : Nat) :
    String :=
  String.ofList (List.replicate length 'a')

end Unbroken

end Implementers.Text
