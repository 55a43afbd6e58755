import Implementers.Proofs.Order.Pairing
import Implementers.Proofs.Order.Sorting
import Implementers.Report.Basic
import Mathlib.Data.List.Nodup

namespace Implementers.Report

/-!
# Rows do not depend on the order of matches

The order of places and labels is total, and only equal labels stand level in it.  So sorting puts
the implementers of a row in one order only, and rows whose interfaces have different labels as
well.
-/

section Orders

instance : Std.TransCmp Place.order :=
  inferInstanceAs <| Std.TransCmp <|
    compareLex (compareOn Place.fileName)
      (compareLex (compareOn Place.line) (compareOn Place.column))

instance : Std.LawfulEqCmp Place.order where
  compare_self := by simp [Place.order]
  eq_of_compare := by
    rintro ⟨file, line, column⟩ ⟨otherFile, otherLine, otherColumn⟩ level
    simp only [Place.order, Ordering.then_eq_eq, Std.LawfulEqCmp.compare_eq_iff_eq] at level
    obtain ⟨rfl, rfl, rfl⟩ := level
    rfl

instance : Std.TransCmp fun left right : TypeLabel => left.place.order right.place where
  eq_swap := Std.OrientedCmp.eq_swap
  isLE_trans := Std.TransCmp.isLE_trans

instance : Std.TransCmp TypeLabel.order :=
  inferInstanceAs <| Std.TransCmp <|
    compareLex (fun left right : TypeLabel => left.place.order right.place)
      (compareOn TypeLabel.name)

instance : Std.LawfulEqCmp TypeLabel.order where
  compare_self := by simp [TypeLabel.order, Std.ReflCmp.compare_self]
  eq_of_compare := by
    rintro ⟨name, place⟩ ⟨otherName, otherPlace⟩ level
    simp only [TypeLabel.order, Ordering.then_eq_eq, Std.LawfulEqCmp.compare_eq_iff_eq] at level
    obtain ⟨rfl, rfl⟩ := level
    rfl

instance : Std.TransCmp fun left right : Row => left.interface.order right.interface where
  eq_swap := Std.OrientedCmp.eq_swap
  isLE_trans := Std.TransCmp.isLE_trans

end Orders

namespace TypeLabel

/-- Labels in two orders are the same when they are sorted. -/
theorem mergeSort_eq_of_perm
    {left right : List TypeLabel}
    (same : left.Perm right) :
    left.mergeSort notAfter = right.mergeSort notAfter := by
  have perm := same.trans (List.mergeSort_perm right notAfter).symm
  exact Sorting.eq_of_perm order (fun _ _ _ _ => Std.LawfulEqCmp.eq_of_compare) perm
    (Sorting.pairwise order right)

end TypeLabel

/-- Each match has its row in a report. -/
theorem rows_perm
    (found : List Match) :
    (rows found).Perm (found.map Row.ofMatch) :=
  List.mergeSort_perm _ _

/-- No row comes behind another one that it does not come after. -/
theorem rows_sorted
    (found : List Match) :
    (rows found).Pairwise fun row other => row.notAfter other :=
  Sorting.pairwise (fun left right : Row => left.interface.order right.interface) _

/--
Two matches show the same when their interfaces have the same label and their implementers have the
same labels in some order.
-/
structure ShowsSame
    (left right : Match) :
    Prop where
  interface : TypeLabel.ofSymbol left.interface = .ofSymbol right.interface
  implementers :
    (left.implementers.map TypeLabel.ofSymbol).Perm (right.implementers.map TypeLabel.ofSymbol)

/-- Matches that show the same have the same row. -/
theorem ShowsSame.row
    {left right : Match}
    (same : ShowsSame left right) :
    Row.ofMatch left = Row.ofMatch right := by
  simp only [Row.ofMatch, same.interface, TypeLabel.mergeSort_eq_of_perm same.implementers]

/--
A report does not depend on the order of the matches or of the implementers of a match, as long as
no two interfaces share a label.
-/
theorem rows_eq_of_paired
    {left right : List Match}
    (paired : Paired ShowsSame left right)
    (distinct : (left.map fun found => TypeLabel.ofSymbol found.interface).Nodup) :
    rows left = rows right := by
  have same : (left.map Row.ofMatch).Perm (right.map Row.ofMatch) := by
    obtain ⟨middle, perm, pairs⟩ := paired
    have rowsEqual : middle.map Row.ofMatch = right.map Row.ofMatch := by
      rw [← List.forall₂_eq_eq_eq, List.forall₂_map_left_iff, List.forall₂_map_right_iff]
      exact pairs.imp fun _ _ => ShowsSame.row
    exact rowsEqual ▸ perm.map Row.ofMatch
  have labels : ((left.map Row.ofMatch).map Row.interface).Nodup := by
    rw [List.map_map]
    exact distinct
  have apart (row : Row) (listed : row ∈ left.map Row.ofMatch)
      (other : Row) (otherListed : other ∈ left.map Row.ofMatch)
      (level : row.interface.order other.interface = .eq) : row = other :=
    List.inj_on_of_nodup_map labels listed otherListed (Std.LawfulEqCmp.eq_of_compare level)
  exact Sorting.eq_of_perm (fun left right : Row => left.interface.order right.interface) apart
    (same.trans (rows_perm right).symm) (rows_sorted right)

end Implementers.Report
