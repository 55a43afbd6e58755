import Mathlib.Data.List.Perm.Basic

namespace Implementers.FanIn

/-!
# Interleavings of lists

Lists are interleaved by taking elements one at a time, each from the front of some list.  `Merges`
follows this while it goes on and remembers what is left of each list; an interleaving is what has
been taken when nothing is left.
-/

/-- After taking elements from the fronts of lists, the given rests are left. -/
inductive Merges
    (lists : List (List α)) :
    List α → List (List α) → Prop where
  | start : Merges lists [] lists
  | take
      {taken : List α}
      {before after : List (List α)}
      {element : α}
      {rest : List α}
      (earlier : Merges lists taken (before ++ (element :: rest) :: after)) :
      Merges lists (taken ++ [element]) (before ++ rest :: after)

/-- A list is an interleaving of lists when taking its elements leaves nothing of them. -/
def Interleaving
    (lists : List (List α))
    (merged : List α) :
    Prop :=
  ∃ rests, Merges lists merged rests ∧ ∀ rest ∈ rests, rest = []

namespace Merges

/-- A further list that nothing is taken from changes nothing. -/
theorem append
    {lists rests : List (List α)}
    {taken : List α}
    (merges : Merges lists taken rests)
    (further : List α) :
    Merges (lists ++ [further]) taken (rests ++ [further]) := by
  induction merges with
  | start => exact .start
  | take _ inductionHypothesis =>
      simp only [List.append_assoc, List.cons_append] at inductionHypothesis ⊢
      exact .take inductionHypothesis

/-- The next element may be taken from wherever a rest stands. -/
theorem take_of_perm
    {lists rests others : List (List α)}
    {taken rest : List α}
    {element : α}
    (merges : Merges lists taken rests)
    (same : rests.Perm ((element :: rest) :: others)) :
    ∃ after, Merges lists (taken ++ [element]) after ∧ after.Perm (rest :: others) := by
  have member : (element :: rest) ∈ rests :=
    same.mem_iff.mpr List.mem_cons_self
  obtain ⟨front, back, rfl⟩ := List.mem_iff_append.mp member
  refine ⟨front ++ rest :: back, .take merges, ?_⟩
  have unchanged : (front ++ back).Perm others :=
    (List.perm_middle.symm.trans same).cons_inv
  exact List.perm_middle.trans (unchanged.cons rest)

/-- The order of the lists does not matter. -/
theorem perm
    {lists others rests : List (List α)}
    {taken : List α}
    (merges : Merges lists taken rests)
    (same : lists.Perm others) :
    ∃ after, Merges others taken after ∧ after.Perm rests := by
  induction merges with
  | start => exact ⟨others, .start, same.symm⟩
  | take _ inductionHypothesis =>
      obtain ⟨after, merged, perm⟩ := inductionHypothesis
      obtain ⟨next, mergedNext, permNext⟩ :=
        merged.take_of_perm (perm.trans List.perm_middle)
      exact ⟨next, mergedNext, permNext.trans List.perm_middle.symm⟩

/-- What was taken and what is left are together what there was. -/
theorem perm_flatten
    {lists rests : List (List α)}
    {taken : List α}
    (merges : Merges lists taken rests) :
    (taken ++ rests.flatten).Perm lists.flatten := by
  induction merges with
  | start => exact .refl _
  | @take taken before after element rest _ inductionHypothesis =>
      refine .trans ?_ inductionHypothesis
      simp only [List.flatten_append, List.flatten_cons, List.cons_append, List.append_assoc,
        List.nil_append]
      exact List.Perm.append_left taken List.perm_middle.symm

/-- Of each list an initial part was taken in its order, and one of the rests is left. -/
theorem exists_part
    {lists rests : List (List α)}
    {taken : List α}
    (merges : Merges lists taken rests)
    {list : List α}
    (member : list ∈ lists) :
    ∃ part, ∃ rest ∈ rests, list = part ++ rest ∧ part.Sublist taken := by
  induction merges with
  | start => exact ⟨[], list, member, rfl, List.nil_sublist _⟩
  | @take taken before after element rest _ inductionHypothesis =>
      obtain ⟨part, left, leftMember, shape, ordered⟩ := inductionHypothesis
      have weakened : part.Sublist (taken ++ [element]) :=
        ordered.trans (List.sublist_append_left taken [element])
      rcases List.mem_append.mp leftMember with inBefore | inTail
      · exact ⟨part, left, by simp [inBefore], shape, weakened⟩
      · rcases List.mem_cons.mp inTail with isTaken | inAfter
        · subst left
          refine ⟨part ++ [element], rest, by simp, by simp [shape], ?_⟩
          exact ordered.append (List.Sublist.refl [element])
        · exact ⟨part, left, by simp [inAfter], shape, weakened⟩

end Merges

namespace Interleaving

/-- An interleaving of lists is one of the same lists in another order. -/
theorem perm
    {lists others : List (List α)}
    {merged : List α}
    (interleaving : Interleaving lists merged)
    (same : lists.Perm others) :
    Interleaving others merged := by
  obtain ⟨rests, merges, finished⟩ := interleaving
  obtain ⟨after, mergesOthers, afterPerm⟩ := merges.perm same
  exact ⟨after, mergesOthers, fun rest member => finished rest (afterPerm.mem_iff.mp member)⟩

/-- Every element occurs in an interleaving exactly as often as in the lists together. -/
theorem perm_flatten
    {lists : List (List α)}
    {merged : List α}
    (interleaving : Interleaving lists merged) :
    merged.Perm lists.flatten := by
  obtain ⟨rests, merges, finished⟩ := interleaving
  have nothingLeft : rests.flatten = [] :=
    List.flatten_eq_nil_iff.mpr finished
  simpa [nothingLeft] using merges.perm_flatten

/-- The elements of each list keep their order in an interleaving. -/
theorem sublist
    {lists : List (List α)}
    {merged : List α}
    (interleaving : Interleaving lists merged)
    {list : List α}
    (member : list ∈ lists) :
    list.Sublist merged := by
  obtain ⟨rests, merges, finished⟩ := interleaving
  obtain ⟨part, rest, restMember, shape, ordered⟩ := merges.exists_part member
  rw [shape, finished rest restMember, List.append_nil]
  exact ordered

/--
Elements that only one of the lists has stand in every interleaving as they stand in that list, so
their order is the one in which the lists follow one another.
-/
theorem filter_eq
    {lists : List (List α)}
    {merged : List α}
    (interleaving : Interleaving lists merged)
    {belongs : α → Bool}
    (apart :
      lists.Pairwise fun left right =>
        left.filter belongs = [] ∨ right.filter belongs = []) :
    merged.filter belongs = lists.flatten.filter belongs := by
  have same : (merged.filter belongs).Perm (lists.flatten.filter belongs) :=
    interleaving.perm_flatten.filter belongs
  by_cases nowhere : ∀ list ∈ lists, list.filter belongs = []
  · have nothing : lists.flatten.filter belongs = [] := by
      simpa [List.filter_flatten] using nowhere
    rw [nothing] at same ⊢
    exact same.eq_nil
  · push Not at nowhere
    obtain ⟨list, member, found⟩ := nowhere
    obtain ⟨front, back, rfl⟩ := List.mem_iff_append.mp member
    obtain ⟨_, later, before⟩ := List.pairwise_append.mp apart
    have frontEmpty : front.flatten.filter belongs = [] := by
      simp only [List.filter_flatten, List.flatten_eq_nil_iff, List.mem_map]
      rintro _ ⟨other, inFront, rfl⟩
      exact (before other inFront list List.mem_cons_self).resolve_right found
    have backEmpty : back.flatten.filter belongs = [] := by
      simp only [List.filter_flatten, List.flatten_eq_nil_iff, List.mem_map]
      rintro _ ⟨other, inBack, rfl⟩
      exact ((List.pairwise_cons.mp later).1 other inBack).resolve_left found
    have alone :
        (front ++ list :: back).flatten.filter belongs = list.filter belongs := by
      simp [frontEmpty, backEmpty]
    rw [alone] at same ⊢
    exact (((interleaving.sublist member).filter belongs).eq_of_length same.length_eq.symm).symm

end Interleaving

end Implementers.FanIn
