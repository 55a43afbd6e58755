import Implementers.Proofs.Scope.Lockstep

/-!
# Aliases being expanded around a resolution

A resolution inside the right-hand sides of some aliases comes to what it comes to outside of them,
unless it meets one of these aliases again.
-/

namespace Implementers

variable
  {scope : Scope}
  {outer base : List String}

/--
Two states that know the same and look for the same, the first one inside some outer aliases more
than the second.  Both have gone on into the same inner ones.
-/
structure ScopeState.Inside
    (outer base inner : List String)
    (within without : ScopeState) :
    Prop where
  finished : without.finished = within.finished
  inProgress : without.inProgress = within.inProgress
  within : within.expanding = inner ++ (outer ++ base)
  without : without.expanding = inner ++ base

/-- Outcomes inside and outside of some aliases. -/
inductive Unwrapped
    (scope : Scope)
    (outer base inner : List String)
    (agree : α → β → Prop) :
    Except UnitError α × ScopeState → Except UnitError β × ScopeState → Prop where
  | answered
      {value : α}
      {other : β}
      {within without : ScopeState}
      (agrees : agree value other)
      (inside : within.Inside outer base inner without) :
      Unwrapped scope outer base inner agree (.ok value, within) (.ok other, without)
  | failed
      (left right : UnitError)
      (within without : ScopeState) :
      Unwrapped scope outer base inner agree (.error left, within) (.error right, without)
  | caught
      {decl : TypeDecl}
      (declared : scope.lookup? decl.name = some decl)
      (isOuter : decl.name ∈ outer)
      (within : ScopeState)
      (outcome : Except UnitError β × ScopeState) :
      Unwrapped scope outer base inner agree (.error decl.recursive, within) outcome

/-- Two resolutions that come to the same inside and outside of some aliases. -/
def Unwraps
    (scope : Scope)
    (outer base : List String)
    (agree : α → β → Prop)
    (left : Resolve α)
    (right : Resolve β) :
    Prop :=
  ∀ inner within without, within.Inside outer base inner without →
    Unwrapped scope outer base inner agree (left within) (right without)

namespace Unwraps

theorem answer
    {agree : α → β → Prop}
    {left : α}
    {right : β}
    (agrees : agree left right) :
    Unwraps scope outer base agree (.answer left) (.answer right) :=
  fun _ _ _ inside => .answered agrees inside

theorem fail
    {agree : α → β → Prop}
    (left right : UnitError) :
    Unwraps scope outer base agree (.fail left) (.fail right) :=
  fun _ within without _ => .failed left right within without

theorem warn
    (left right : Warning) :
    Unwraps scope outer base Eq (.warn left) (.warn right) :=
  fun _ _ _ inside =>
    .answered rfl ⟨inside.finished, inside.inProgress, inside.within, inside.without⟩

theorem andThen
    {agree : α → β → Prop}
    {agreeNext : γ → δ → Prop}
    {left : Resolve α}
    {right : Resolve β}
    {leftNext : α → Resolve γ}
    {rightNext : β → Resolve δ}
    (first : Unwraps scope outer base agree left right)
    (next : ∀ value other, agree value other →
      Unwraps scope outer base agreeNext (leftNext value) (rightNext other)) :
    Unwraps scope outer base agreeNext (left.andThen leftNext) (right.andThen rightNext) := by
  intro inner within without inside
  have unwrapped := first inner within without inside
  simp only [Resolve.andThen]
  generalize left within = leftOutcome at unwrapped ⊢
  generalize right without = rightOutcome at unwrapped ⊢
  cases unwrapped with
  | answered agrees middle => exact next _ _ agrees _ _ _ middle
  | failed leftError rightError _ _ => exact .failed leftError rightError _ _
  | caught declared isOuter _ _ => exact .caught declared isOuter _ _

/-- Looking into an alias, which may be one of the outer ones. -/
theorem expanding
    {agree : α → β → Prop}
    {decl : TypeDecl}
    {left : Resolve α}
    {right : Resolve β}
    (declared : scope.lookup? decl.name = some decl)
    (deeper : Unwraps scope outer base agree left right) :
    Unwraps scope outer base agree (.expanding decl left) (.expanding decl right) := by
  intro inner within without inside
  simp only [Resolve.expanding, inside.within, inside.without, List.contains_eq_mem,
    decide_eq_true_eq]
  by_cases isOuter : decl.name ∈ outer
  · have met : decl.name ∈ inner ++ (outer ++ base) := by simp [isOuter]
    rw [if_pos met]
    exact .caught declared isOuter _ _
  · have same : decl.name ∈ inner ++ (outer ++ base) ↔ decl.name ∈ inner ++ base := by
      simp [isOuter]
    by_cases met : decl.name ∈ inner ++ base
    · rw [if_pos (same.mpr met), if_pos met]
      exact .failed _ _ _ _
    · rw [if_neg fun again => met (same.mp again), if_neg met]
      have unwrapped :=
        deeper (decl.name :: inner)
          { within with expanding := decl.name :: (inner ++ (outer ++ base)) }
          { without with expanding := decl.name :: (inner ++ base) }
          ⟨inside.finished, inside.inProgress, rfl, rfl⟩
      generalize left { within with expanding := decl.name :: (inner ++ (outer ++ base)) } =
        leftOutcome at unwrapped ⊢
      generalize right { without with expanding := decl.name :: (inner ++ base) } =
        rightOutcome at unwrapped ⊢
      cases unwrapped with
      | answered agrees middle =>
          exact .answered agrees
            ⟨middle.finished, middle.inProgress, congrArg List.tail middle.within,
              congrArg List.tail middle.without⟩
      | failed leftError rightError _ _ => exact .failed leftError rightError _ _
      | caught declared isOuter _ _ => exact .caught declared isOuter _ _

/-- Looking for what is underneath a declared name. -/
theorem finding
    {decl : TypeDecl}
    {left right : Resolve Underlying}
    (deeper : Unwraps scope outer base Eq left right) :
    Unwraps scope outer base Eq (.finding decl left) (.finding decl right) := by
  intro inner within without inside
  have sameLookup :
      without.finished.lookup decl.name = within.finished.lookup decl.name := by
    rw [inside.finished]
  simp only [Resolve.finding, sameLookup, inside.inProgress]
  cases within.finished.lookup decl.name with
  | some found => exact .answered rfl inside
  | none =>
      dsimp only
      split
      · exact .failed _ _ _ _
      · have unwrapped :=
          deeper inner { within with inProgress := decl.name :: within.inProgress }
            { without with inProgress := decl.name :: within.inProgress }
            ⟨inside.finished, rfl, inside.within, inside.without⟩
        generalize left { within with inProgress := decl.name :: within.inProgress } = leftOutcome
          at unwrapped ⊢
        generalize right { without with inProgress := decl.name :: within.inProgress } =
          rightOutcome at unwrapped ⊢
        cases unwrapped with
        | answered same middle =>
            subst same
            refine .answered rfl ⟨?_, ?_, middle.within, middle.without⟩
            · rw [middle.finished]
            · rw [middle.inProgress]
        | failed leftError rightError _ _ => exact .failed leftError rightError _ _
        | caught declared isOuter _ _ => exact .caught declared isOuter _ _

end Unwraps

/-- Resolutions come to the same inside and outside of some aliases. -/
def unwrapping
    (scope : Scope)
    (outer base : List String) :
    Congruence where
  Related := Unwraps scope outer base
  answer := Unwraps.answer
  fail := Unwraps.fail
  warn := Unwraps.warn
  andThen := Unwraps.andThen

/-- Declared names mean the same inside and outside of some aliases, however deep they look. -/
theorem unwrapping_meaning
    (scope : Scope)
    (outer base : List String)
    (depth : Nat) :
    (unwrapping scope outer base).Agreement .stay scope (scope.meaning depth)
      (scope.meaning depth) := by
  induction depth with
  | zero => exact .inPlace (fun _ _ _ _ => Unwraps.fail _ _) fun _ _ _ => Unwraps.fail _ _
  | succ depth inductionHypothesis =>
      apply Congruence.Agreement.inPlace
      · intro name decl found _
        exact Unwraps.expanding (Scope.lookup?_self found)
          ((unwrapping scope outer base).lowerTypeWith_stay inductionHypothesis decl.file
            decl.spec.type)
      · intro name decl found
        have deeper := (unwrapping scope outer base).underlyingWith_stay inductionHypothesis
          decl.file decl.spec.type
        exact (unwrapping scope outer base).branch Iff.rfl
          (fun _ => Unwraps.expanding (Scope.lookup?_self found) deeper)
          fun _ => Unwraps.finding deeper

end Implementers
