import Implementers.Proofs.Scope.Questions

/-!
# Packages side by side

Two packages that differ only in the places of their declarations are resolved in lockstep.  Every
question about the one answers when the same question about the other does, and both remember the
same afterwards, each of them in its own places.
-/

namespace Implementers

/-- The outcomes of two resolutions that both answer, or that both fail. -/
abbrev Abreast
    (relocation : Relocation)
    (agree : α → β → Prop) :
    Except UnitError α × ScopeState → Except UnitError β × ScopeState → Prop :=
  Accord relocation.underlying (fun _ _ => True) agree

/-- Two resolutions that stay abreast of each other from states that mirror each other. -/
abbrev Lockstep
    (relocation : Relocation)
    (agree : α → β → Prop)
    (left : Resolve α)
    (right : Resolve β) :
    Prop :=
  Carries relocation.underlying (fun _ _ => True) agree left right

/-- Packages that differ in the places of their declarations are resolved in lockstep. -/
def marching
    (relocation : Relocation) :
    Congruence where
  Related := Lockstep relocation
  answer := .answer
  fail _ _ := .fail trivial
  warn := .warn rfl
  andThen := .andThen

/-- The meanings of declared names go in lockstep, however deep they look. -/
theorem marching_meaning
    {relocation : Relocation}
    {before after : Scope}
    (moves : relocation.Moves before after)
    (depth : Nat) :
    (marching relocation).Agreement relocation before (before.meaning depth)
      (after.meaning depth) := by
  induction depth with
  | zero => exact ⟨fun _ _ _ _ => Carries.fail trivial, fun _ _ _ => Carries.fail trivial⟩
  | succ depth inductionHypothesis =>
      constructor
      · intro _ decl _ _
        exact Carries.expanding (relocation.decl_name decl) trivial
          ((marching relocation).lowerTypeWith moves inductionHypothesis decl.file decl.spec.type)
      · intro _ decl _
        have inside := (marching relocation).underlyingWith moves inductionHypothesis decl.file
          decl.spec.type
        have sameName := relocation.decl_name decl
        exact (marching relocation).branch Iff.rfl
          (fun _ => Carries.expanding sameName trivial inside)
          fun _ => Carries.finding sameName trivial inside

/-- What the declared names of two packages mean goes in lockstep. -/
theorem marching_declMeaning
    {relocation : Relocation}
    {before after : Scope}
    (moves : relocation.Moves before after) :
    (marching relocation).Agreement relocation before before.declMeaning after.declMeaning := by
  simp only [Scope.declMeaning, moves.size]
  exact marching_meaning moves _

end Implementers
