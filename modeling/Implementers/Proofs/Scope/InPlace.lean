import Implementers.Proofs.Scope.Relocation
import Implementers.Scope.Promotion

/-!
# One package in the place of another

A package may stand in the place of another one: what the other one declares is declared here in a
new place.  Following aliases then leads to the same declarations.  The resolutions of the two
packages are carried along by each other when from states that remember the same both answer alike
or both fail alike, and again remember the same afterwards.  This is shown here for every way to
build a resolution, whatever becomes of declarations and whichever errors are alike.
-/

namespace Implementers

open Syntax (TypeExpr FieldDecl)

/-! ## Names and aliases -/

/--
Whether a package declares the names of another one, with the same right-hand sides but for where
they stand.
-/
structure Scope.Retraces
    (become : TypeDecl → TypeDecl)
    (before after : Scope) :
    Prop where
  size : after.decls.length = before.decls.length
  lookup : ∀ name, after.lookup? name = (before.lookup? name).map become
  name : ∀ decl, (become decl).name = decl.name
  isAlias : ∀ decl, (become decl).spec.isAlias = decl.spec.isAlias
  type : ∀ decl, ∃ move, (become decl).spec.type = decl.spec.type.moved move

namespace Scope.Retraces

variable
  {become : TypeDecl → TypeDecl}
  {before after : Scope}
  (retraces : before.Retraces become after)

include retraces

/-- The declaration behind aliases is found in its new place. -/
theorem throughAliases?
    (hops : Nat)
    (name : String) :
    after.throughAliases? hops name =
      (before.throughAliases? hops name).map (Option.map become) := by
  induction hops generalizing name with
  | zero => rfl
  | succ hops inductionHypothesis =>
      simp only [Scope.throughAliases?, retraces.lookup]
      cases before.lookup? name with
      | none => rfl
      | some decl =>
          obtain ⟨move, sameType⟩ := retraces.type decl
          cases isAlias : decl.spec.isAlias with
          | false => simp [retraces.isAlias, isAlias]
          | true =>
              simp only [Option.map_some, retraces.isAlias, isAlias, ↓reduceIte, sameType]
              cases decl.spec.type with
              | name _ qualifier target _ _ =>
                  cases qualifier <;> cases target <;>
                    simp only [TypeExpr.moved, Option.map_none, Option.map_some] <;>
                    split <;> simp [inductionHypothesis]
              | _ => rfl

/-- The target behind the aliases of an embedded field is the same. -/
theorem embeddedThroughAliases?
    (hops : Nat)
    (visited : List String)
    (name : String) :
    after.embeddedThroughAliases? hops visited name =
      before.embeddedThroughAliases? hops visited name := by
  induction hops generalizing visited name with
  | zero => rfl
  | succ hops inductionHypothesis =>
      simp only [Scope.embeddedThroughAliases?, retraces.lookup]
      split
      · rfl
      · cases before.lookup? name with
        | none => rfl
        | some decl =>
            obtain ⟨move, sameType⟩ := retraces.type decl
            cases isAlias : decl.spec.isAlias with
            | false => simp [retraces.isAlias, isAlias, retraces.name]
            | true =>
                simp only [Option.map_some, retraces.isAlias, isAlias, ↓reduceIte, sameType]
                cases decl.spec.type with
                | name _ qualifier target _ _ =>
                    cases qualifier <;> cases target <;>
                      simp [TypeExpr.moved, inductionHypothesis]
                | _ => rfl

/-- The type that an embedded field promotes from is the same wherever the field stands. -/
theorem embeddedTarget?
    (move : Syntax.Span → Syntax.Span)
    (field : FieldDecl) :
    after.embeddedTarget? (field.moved move) = before.embeddedTarget? field := by
  obtain ⟨span, names, starred, type⟩ := field
  cases type with
  | name _ qualifier ident hasArgs _ =>
      cases qualifier <;> cases ident <;> cases hasArgs <;>
        simp [Scope.embeddedTarget?, FieldDecl.moved, FieldDecl.type, TypeExpr.moved,
          retraces.size, retraces.embeddedThroughAliases?]
  | _ => rfl

/-- The way that an embedded field opens is the same wherever the field stands. -/
theorem fieldWay?
    (move : Syntax.Span → Syntax.Span)
    (indirect : Bool)
    (field : FieldDecl) :
    after.fieldWay? indirect (field.moved move) = before.fieldWay? indirect field := by
  simp only [Scope.fieldWay?, FieldDecl.moved_isEmbedded, FieldDecl.moved_embedsPointer,
    retraces.embeddedTarget?]

end Scope.Retraces

/-! ## States -/

/-- A state that remembers what becomes of everything that another state remembers. -/
structure ScopeState.Mirrors
    (become : Underlying → Underlying)
    (before after : ScopeState) :
    Prop where
  finished : after.finished = before.finished.map fun entry => (entry.1, become entry.2)
  inProgress : after.inProgress = before.inProgress
  expanding : after.expanding = before.expanding

namespace ScopeState

variable
  {become : Underlying → Underlying}
  {before after : ScopeState}

theorem Mirrors.initial
    (become : Underlying → Underlying) :
    ScopeState.initial.Mirrors become .initial :=
  ⟨rfl, rfl, rfl⟩

/-- What a state has found underneath a name, its mirror has found in its own place. -/
theorem Mirrors.lookup
    (mirrors : before.Mirrors become after)
    (name : String) :
    after.finished.lookup name = (before.finished.lookup name).map become := by
  rw [mirrors.finished]
  induction before.finished with
  | nil => rfl
  | cons entry rest inductionHypothesis =>
      obtain ⟨key, found⟩ := entry
      by_cases same : name = key
      · subst same
        simp
      · simp only [List.map_cons, List.lookup_cons, beq_false_of_ne same, inductionHypothesis]

/-- States that have found the same things mirror each other when the searches do. -/
theorem Mirrors.of_eq
    {before' after' : ScopeState}
    (mirrors : before.Mirrors become after)
    (sameBefore : before'.finished = before.finished)
    (sameAfter : after'.finished = after.finished)
    (inProgress : after'.inProgress = before'.inProgress)
    (expanding : after'.expanding = before'.expanding) :
    before'.Mirrors become after' :=
  ⟨by rw [sameAfter, sameBefore, mirrors.finished], inProgress, expanding⟩

end ScopeState

/-! ## Resolutions -/

/-- The outcomes of two resolutions that both answer, or that both fail with errors alike. -/
inductive Accord
    (become : Underlying → Underlying)
    (alike : UnitError → UnitError → Prop)
    (agree : α → β → Prop) :
    Except UnitError α × ScopeState → Except UnitError β × ScopeState → Prop where
  | answered
      {value : α}
      {other : β}
      {before after : ScopeState}
      (agrees : agree value other)
      (mirrors : before.Mirrors become after) :
      Accord become alike agree (.ok value, before) (.ok other, after)
  | failed
      {left right : UnitError}
      (errors : alike left right)
      (before after : ScopeState) :
      Accord become alike agree (.error left, before) (.error right, after)

/-- Two resolutions whose outcomes accord with each other from states that mirror each other. -/
def Carries
    (become : Underlying → Underlying)
    (alike : UnitError → UnitError → Prop)
    (agree : α → β → Prop)
    (left : Resolve α)
    (right : Resolve β) :
    Prop :=
  ∀ before after, before.Mirrors become after →
    Accord become alike agree (left before) (right after)

namespace Carries

variable
  {become : Underlying → Underlying}
  {alike : UnitError → UnitError → Prop}

theorem answer
    {agree : α → β → Prop}
    {left : α}
    {right : β}
    (agrees : agree left right) :
    Carries become alike agree (.answer left) (.answer right) :=
  fun _ _ mirrors => .answered agrees mirrors

theorem fail
    {agree : α → β → Prop}
    {left right : UnitError}
    (errors : alike left right) :
    Carries become alike agree (.fail left) (.fail right) :=
  fun before after _ => .failed errors before after

theorem warn
    {agree : Unit → Unit → Prop}
    (agrees : agree () ())
    (left right : Warning) :
    Carries become alike agree (.warn left) (.warn right) :=
  fun _ _ mirrors =>
    .answered agrees (mirrors.of_eq rfl rfl mirrors.inProgress mirrors.expanding)

theorem andThen
    {agree : α → β → Prop}
    {agreeNext : γ → δ → Prop}
    {left : Resolve α}
    {right : Resolve β}
    {leftNext : α → Resolve γ}
    {rightNext : β → Resolve δ}
    (first : Carries become alike agree left right)
    (next : ∀ value other, agree value other →
      Carries become alike agreeNext (leftNext value) (rightNext other)) :
    Carries become alike agreeNext (left.andThen leftNext) (right.andThen rightNext) := by
  intro before after mirrors
  have accord := first before after mirrors
  simp only [Resolve.andThen]
  generalize left before = leftOutcome at accord ⊢
  generalize right after = rightOutcome at accord ⊢
  cases accord with
  | answered agrees middle => exact next _ _ agrees _ _ middle
  | failed errors _ _ => exact .failed errors _ _

/-- What an answer turns into may be followed by what the steps behind it turn into. -/
theorem sequence
    {turn : α → β}
    {agree : γ → δ → Prop}
    {left : Resolve α}
    {right : Resolve β}
    {leftNext : α → Resolve γ}
    {rightNext : β → Resolve δ}
    (first : Carries become alike (fun value turned => turn value = turned) left right)
    (next : ∀ value, Carries become alike agree (leftNext value) (rightNext (turn value))) :
    Carries become alike agree (left.andThen leftNext) (right.andThen rightNext) :=
  first.andThen fun value _ same => same ▸ next value

/-- What an answer turns into passes to what is computed from it. -/
theorem map
    {turn : α → β}
    {agree : γ → δ → Prop}
    {left : Resolve α}
    {right : Resolve β}
    {leftNext : α → γ}
    {rightNext : β → δ}
    (first : Carries become alike (fun value turned => turn value = turned) left right)
    (next : ∀ value, agree (leftNext value) (rightNext (turn value))) :
    Carries become alike agree
      (left.andThen fun value => .answer (leftNext value))
      (right.andThen fun value => .answer (rightNext value)) :=
  first.sequence fun value => answer (next value)

/-- Two resolutions that branch in the same way. -/
theorem branch
    {agree : α → β → Prop}
    {leftCondition rightCondition : Prop}
    [Decidable leftCondition]
    [Decidable rightCondition]
    {leftThen leftElse : Resolve α}
    {rightThen rightElse : Resolve β}
    (same : rightCondition ↔ leftCondition)
    (whenTrue : leftCondition → Carries become alike agree leftThen rightThen)
    (whenFalse : ¬leftCondition → Carries become alike agree leftElse rightElse) :
    Carries become alike agree
      (if leftCondition then leftThen else leftElse)
      (if rightCondition then rightThen else rightElse) := by
  by_cases holds : leftCondition
  · rw [if_pos holds, if_pos (same.mpr holds)]
    exact whenTrue holds
  · rw [if_neg holds, if_neg fun right => holds (same.mp right)]
    exact whenFalse holds

section Declaration

variable
  {decl decl' : TypeDecl}
  (sameName : decl'.name = decl.name)
  (errors : alike decl.recursive decl'.recursive)

include sameName errors

/-- Looking into an alias. -/
theorem expanding
    {agree : α → β → Prop}
    {left : Resolve α}
    {right : Resolve β}
    (inside : Carries become alike agree left right) :
    Carries become alike agree (.expanding decl left) (.expanding decl' right) := by
  intro before after mirrors
  simp only [Resolve.expanding, sameName, mirrors.expanding]
  split
  · exact .failed errors _ _
  · have accord :=
      inside { before with expanding := decl.name :: before.expanding }
        { after with expanding := decl.name :: before.expanding }
        (mirrors.of_eq rfl rfl mirrors.inProgress rfl)
    generalize left { before with expanding := decl.name :: before.expanding } = leftOutcome
      at accord ⊢
    generalize right { after with expanding := decl.name :: before.expanding } = rightOutcome
      at accord ⊢
    cases accord with
    | answered agrees middle =>
        exact .answered agrees
          (middle.of_eq rfl rfl middle.inProgress (congrArg List.tail middle.expanding))
    | failed errorsInside _ _ => exact .failed errorsInside _ _

/-- Looking for what is underneath a declared name. -/
theorem finding
    {left right : Resolve Underlying}
    (inside : Carries become alike (fun found moved => become found = moved) left right) :
    Carries become alike (fun found moved => become found = moved)
      (.finding decl left) (.finding decl' right) := by
  intro before after mirrors
  simp only [Resolve.finding, sameName, mirrors.lookup, mirrors.inProgress]
  cases before.finished.lookup decl.name with
  | some found => exact .answered rfl mirrors
  | none =>
      simp only [Option.map_none]
      split
      · exact .failed errors _ _
      · have accord :=
          inside { before with inProgress := decl.name :: before.inProgress }
            { after with inProgress := decl.name :: before.inProgress }
            (mirrors.of_eq rfl rfl rfl mirrors.expanding)
        generalize left { before with inProgress := decl.name :: before.inProgress } = leftOutcome
          at accord ⊢
        generalize right { after with inProgress := decl.name :: before.inProgress } = rightOutcome
          at accord ⊢
        cases accord with
        | answered underlies middle =>
            refine .answered underlies ⟨?_, ?_, middle.expanding⟩
            · rw [List.map_cons, ← middle.finished, underlies]
            · rw [middle.inProgress]
        | failed errorsInside _ _ => exact .failed errorsInside _ _

end Declaration

end Carries

end Implementers
