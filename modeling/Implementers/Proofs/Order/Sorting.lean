import Mathlib.Data.List.Nodup

namespace Implementers

/-!
# Lists sorted by a comparison

A value does not come after another one when it does not compare as greater.  Sorting by that puts
the values in order, and when no two different values stand level there is one such order only.
-/

namespace Sorting

variable
  {order : α → α → Ordering}

/-- A value does not come after another one when it is less or level. -/
theorem notAfter_iff
    {left right : α} :
    (order left right != .gt) = true ↔ (order left right).isLE := by
  rw [bne_iff_ne, Ordering.isLE_iff_ne_gt]

/-- Two values of which neither comes after the other stand level. -/
theorem eq_of_notAfter
    [Std.OrientedCmp order]
    {left right : α}
    (before : order left right != .gt)
    (after : order right left != .gt) :
    order left right = .eq :=
  Std.OrientedCmp.isLE_antisymm (notAfter_iff.mp before) (notAfter_iff.mp after)

/-- Sorting puts the values in order. -/
theorem pairwise
    (order : α → α → Ordering)
    [Std.TransCmp order]
    (values : List α) :
    (values.mergeSort fun left right => order left right != .gt).Pairwise
      fun left right => order left right != .gt := by
  refine List.pairwise_mergeSort (fun first second third earlier later => ?_)
    (fun left right => ?_) values
  · rw [notAfter_iff] at *
    exact Std.TransCmp.isLE_trans earlier later
  · rw [@Std.OrientedCmp.eq_swap _ order _ right left]
    cases order left right <;> rfl

/-- Sorting brings values of which no two stand level into the one order that is sorted. -/
theorem eq_of_perm
    (order : α → α → Ordering)
    [Std.TransCmp order]
    {values sorted : List α}
    (apart : ∀ value ∈ values, ∀ other ∈ values, order value other = .eq → value = other)
    (perm : values.Perm sorted)
    (isSorted : sorted.Pairwise fun left right => order left right != .gt) :
    (values.mergeSort fun left right => order left right != .gt) = sorted := by
  refine List.Perm.eq_of_pairwise (fun value other listed otherListed before after => ?_)
    (pairwise order values) isSorted ((List.mergeSort_perm values _).trans perm)
  exact apart value (List.mem_mergeSort.mp listed) other (perm.mem_iff.mpr otherListed)
    (eq_of_notAfter before after)

end Sorting

end Implementers
