import Implementers.Text.LineIndex
import Mathlib.Data.List.DropRight

namespace Implementers.Text

/-!
# Where lines start

A text may be taken in pieces, which are its characters or its bytes.  Each piece has a width, and a
line starts behind every piece that ends one.  At an offset between two pieces the line is counted
by the ends in front, and the column by the pieces behind the last end.
-/

/-- The bytes that pieces of a text take. -/
def extent
    (width : α → Nat) :
    List α → Nat
  | [] => 0
  | piece :: rest => width piece + extent width rest

section Pieces

variable
  {width : α → Nat}
  {ends : α → Bool}

variable
  (positive : ∀ piece, 0 < width piece)

include positive

end Pieces

/-! ## Characters as pieces -/

end Implementers.Text
