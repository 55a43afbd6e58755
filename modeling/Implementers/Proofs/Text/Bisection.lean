import Implementers.Text.LineIndex
import Mathlib.Data.Nat.Basic
import Mathlib.Order.Basic

namespace Implementers.Text

/-!
# Finding a line by halving

Among the starts of lines, which increase, an offset is looked for by halving.  It either stands
among them, or it lies behind the start of the line that it is on; in both cases that line is the
last one that starts at or before the offset.
-/

/--
Where a value stands among the `size` numbers from the place `base` on, or else the place where it
would have to be inserted.  Half of the numbers are left out in each turn until one of them is left.
-/
def bisect
    (numbers : List Nat)
    (value base size : Nat) :
    Except Nat Nat :=
  if size ≤ 1 then
    match numbers[base]? with
    | none => .error base
    | some number =>
        if number = value then
          .ok base
        else if number < value then
          .error (base + 1)
        else
          .error base
  else
    let half := size / 2
    match numbers[base + half]? with
    | none => .error base
    | some number =>
        if value < number then
          bisect numbers value base (size - half)
        else
          bisect numbers value (base + half) (size - half)
termination_by size

namespace LineIndex

/-- The place of the line that an offset is on, by halving; none if it were below zero. -/
def search
    (index : LineIndex)
    (offset : Nat) :
    Option Nat :=
  match bisect index.starts offset 0 index.starts.length with
  | .ok place => some place
  | .error next => if next = 0 then none else some (next - 1)

/-- One more than a number, if it fits in thirty-two bits. -/
def nextWord?
    (number : Nat) :
    Option Nat :=
  if number + 1 < UInt32.size then some (number + 1) else none

/-- A line and a column counted from one, if both fit in thirty-two bits. -/
def counted?
    (line column : Nat) :
    Option (Nat × Nat) := do
  return (← nextWord? line, ← nextWord? column)

/--
The line and the column of an offset, by halving.  There are none if a number were below zero or did
not fit in thirty-two bits, or if there were no such line.
-/
def locate
    (index : LineIndex)
    (offset : Nat) :
    Option (Nat × Nat) := do
  let line ← index.search offset
  let start ← index.starts[line]?
  if offset < start then
    none
  else
    counted? line (offset - start)

end LineIndex

end Implementers.Text
