import Mathlib.Data.List.Perm.Basic

/-!
# Lists that match in some order

Two lists match in some order when the entries of one can be paired off with the entries of the
other so that each pair is related.
-/

namespace Implementers

/-- Lists whose entries can be paired off in some order, each pair being related. -/
def Paired
    (related : α → β → Prop)
    (left : List α)
    (right : List β) :
    Prop :=
  ∃ middle, left.Perm middle ∧ List.Forall₂ related middle right

namespace Paired

theorem of_forall₂
    {related : α → β → Prop}
    {left : List α}
    {right : List β}
    (pairs : List.Forall₂ related left right) :
    Paired related left right :=
  ⟨left, .refl left, pairs⟩

theorem of_perm
    {left right : List α}
    (perm : left.Perm right) :
    Paired Eq left right :=
  ⟨right, perm, List.forall₂_eq_eq_eq ▸ rfl⟩

theorem perm
    {left right : List α}
    (paired : Paired Eq left right) :
    left.Perm right := by
  obtain ⟨middle, perm, pairs⟩ := paired
  rw [List.forall₂_eq_eq_eq] at pairs
  exact pairs ▸ perm

theorem imp
    {related weaker : α → β → Prop}
    {left : List α}
    {right : List β}
    (paired : Paired related left right)
    (weaken : ∀ value other, related value other → weaker value other) :
    Paired weaker left right := by
  obtain ⟨middle, perm, pairs⟩ := paired
  exact ⟨middle, perm, pairs.imp weaken⟩

/-- Pairings one after the other. -/
theorem trans
    {first : α → β → Prop}
    {second : β → γ → Prop}
    {third : α → γ → Prop}
    {left : List α}
    {middle : List β}
    {right : List γ}
    (paired : Paired first left middle)
    (pairedNext : Paired second middle right)
    (compose : ∀ value other last, first value other → second other last → third value last) :
    Paired third left right := by
  obtain ⟨arranged, perm, pairs⟩ := paired
  obtain ⟨arrangedNext, permNext, pairsNext⟩ := pairedNext
  -- The second order is carried back along the pairs of the first.
  obtain ⟨arrangedBack, permBack, pairsBack⟩ :
      ∃ back, arranged.Perm back ∧ List.Forall₂ first back arrangedNext := by
    have carried : Relation.Comp List.Perm (List.Forall₂ first) arranged arrangedNext := by
      rw [← List.forall₂_comp_perm_eq_perm_comp_forall₂]
      exact ⟨middle, pairs, permNext⟩
    exact carried
  refine ⟨arrangedBack, perm.trans permBack, ?_⟩
  clear perm permNext permBack pairs
  induction pairsBack generalizing right with
  | nil =>
      cases pairsNext
      exact .nil
  | cons head _ inductionHypothesis =>
      cases pairsNext with
      | cons headNext tailNext =>
          exact .cons (compose _ _ _ head headNext) (inductionHypothesis tailNext)

/-- The pairing seen from the other side. -/
theorem symm
    {related : α → β → Prop}
    {left : List α}
    {right : List β}
    (paired : Paired related left right) :
    Paired (fun other value => related value other) right left := by
  obtain ⟨middle, perm, pairs⟩ := paired
  exact (of_forall₂ pairs.flip).trans (of_perm perm.symm) fun _ _ _ relates same => same ▸ relates

/-- What belongs to paired entries is paired as well. -/
theorem carry
    {belongs : α → γ → Prop}
    {related : α → β → Prop}
    {belongs' : β → δ → Prop}
    {relatedNext : γ → δ → Prop}
    {left : List α}
    {right : List β}
    {leftNext : List γ}
    {rightNext : List δ}
    (paired : Paired related left right)
    (pairs : List.Forall₂ belongs left leftNext)
    (pairs' : List.Forall₂ belongs' right rightNext)
    (relates : ∀ entry entry' value value',
      related entry entry' → belongs entry value → belongs' entry' value' →
        relatedNext value value') :
    Paired relatedNext leftNext rightNext := by
  have back : Paired (fun value entry' => ∃ entry, related entry entry' ∧ belongs entry value)
      leftNext right :=
    (of_forall₂ pairs).symm.trans paired fun _ _ _ belongs related => ⟨_, related, belongs⟩
  apply back.trans (of_forall₂ pairs')
  intro value entry' value'
  rintro ⟨entry, isRelated, belongsTo⟩ belongsTo'
  exact relates entry entry' value value' isRelated belongsTo belongsTo'

theorem append
    {related : α → β → Prop}
    {left left' : List α}
    {right right' : List β}
    (paired : Paired related left right)
    (paired' : Paired related left' right') :
    Paired related (left ++ left') (right ++ right') := by
  obtain ⟨middle, perm, pairs⟩ := paired
  obtain ⟨middle', perm', pairs'⟩ := paired'
  exact ⟨middle ++ middle', perm.append perm', List.rel_append pairs pairs'⟩

theorem map
    {related : α → β → Prop}
    {relatedNext : γ → δ → Prop}
    {left : List α}
    {right : List β}
    {place : α → γ}
    {place' : β → δ}
    (paired : Paired related left right)
    (relates : ∀ value other, related value other → relatedNext (place value) (place' other)) :
    Paired relatedNext (left.map place) (right.map place') := by
  obtain ⟨middle, perm, pairs⟩ := paired
  refine ⟨middle.map place, perm.map place, ?_⟩
  rw [List.forall₂_map_left_iff, List.forall₂_map_right_iff]
  exact pairs.imp relates

/-- Entries with the same keys can be paired off when the keys are the same in some order. -/
theorem of_perm_map
    {key : α → γ}
    {key' : β → γ}
    {left : List α}
    {right : List β}
    (perm : (left.map key).Perm (right.map key')) :
    Paired (fun value other => key value = key' other) left right := by
  have keyed : Paired (fun value shared => key value = shared) left (left.map key) :=
    of_forall₂ (List.forall₂_map_right_iff.mpr (List.forall₂_same.mpr fun _ _ => rfl))
  have keyed' : Paired (fun shared other => shared = key' other) (right.map key') right :=
    of_forall₂ (List.forall₂_map_left_iff.mpr (List.forall₂_same.mpr fun _ _ => rfl))
  exact (keyed.trans (of_perm perm) fun _ _ _ first second => first.trans second).trans keyed'
    fun _ _ _ first second => first.trans second

/-- Lists made from paired entries are paired when those of each pair are. -/
theorem flatMap
    {related : α → β → Prop}
    {relatedNext : γ → δ → Prop}
    {left : List α}
    {right : List β}
    {parts : α → List γ}
    {parts' : β → List δ}
    (paired : Paired related left right)
    (relates : ∀ value other, related value other →
      Paired relatedNext (parts value) (parts' other)) :
    Paired relatedNext (left.flatMap parts) (right.flatMap parts') := by
  obtain ⟨middle, perm, pairs⟩ := paired
  have arranged : Paired relatedNext (middle.flatMap parts) (right.flatMap parts') := by
    clear perm
    induction pairs with
    | nil => exact of_forall₂ .nil
    | cons head _ inductionHypothesis => exact (relates _ _ head).append inductionHypothesis
  exact (of_perm (perm.flatMap_right parts)).trans arranged fun _ _ _ same relates => same ▸ relates

end Paired

end Implementers
