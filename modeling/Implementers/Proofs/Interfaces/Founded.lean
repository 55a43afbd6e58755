import Implementers.Proofs.Interfaces.Union
import Implementers.Proofs.Scope.Recollection

namespace Implementers

/-!
# What is found underneath names is founded in the source

While a package is resolved, whatever is remembered underneath a declared name fits the source that
the declaration leads to: an interface gathers the closure of that source, and anything else is what
the source is.  Every resolution keeps this, as long as the state at the end knows what it finds.
-/

open Syntax (Ident TypeExpr Elem ParamList)

namespace Scope

/-- What is underneath a type fits the source that the type leads to. -/
inductive Fits
    (scope : Scope)
    (final : ScopeState) :
    InterfaceSource → Underlying → Prop where
  | interface
      {source : InterfaceSource}
      {interface : InterfaceMethods}
      (isInterface : source.isInterface = true)
      (gathers : scope.Gathers final source interface) :
      Fits scope final source (.interface interface)
  | imported
      {path : String} :
      Fits scope final .imported (.imported path)
  | struct
      {file : FileScope}
      {fields : List Syntax.FieldDecl} :
      Fits scope final .restriction (.struct file fields)
  | other : Fits scope final .restriction .other

/-- What fits a source is an interface exactly when the source is one. -/
theorem Fits.isInterface_eq
    {scope : Scope}
    {final : ScopeState}
    {source : InterfaceSource}
    {underlying : Underlying}
    (fits : scope.Fits final source underlying) :
    underlying.isInterface = source.isInterface := by
  cases fits with
  | interface isInterface _ => exact isInterface.symm
  | imported => rfl
  | struct => rfl
  | other => rfl

/-- What fits an interface is one and gathers its closure. -/
theorem Fits.gathers
    {scope : Scope}
    {final : ScopeState}
    {source : InterfaceSource}
    {underlying : Underlying}
    (fits : scope.Fits final source underlying)
    (isInterface : source.isInterface = true) :
    ∃ interface, underlying = .interface interface ∧ scope.Gathers final source interface := by
  cases fits with
  | interface _ gathers => exact ⟨_, rfl, gathers⟩
  | imported | struct | other => cases isInterface

/-- What is underneath a type expression fits the source that it leads to. -/
def Sourced
    (scope : Scope)
    (final : ScopeState)
    (file : FileScope)
    (type : TypeExpr)
    (underlying : Underlying) :
    Prop :=
  ∃ source, scope.Denotes file type source ∧ scope.Fits final source underlying

end Scope

namespace ScopeState

/-- Whatever a state has finished fits the source of its declaration. -/
def Founded
    (scope : Scope)
    (state final : ScopeState) :
    Prop :=
  ∀ name found, state.finished.lookup name = some found →
    ∃ decl, scope.lookup? name = some decl ∧
      scope.Sourced final decl.file decl.spec.type found

/-- A state at the end of a resolution: nothing is being looked into. -/
structure Settled
    (scope : Scope)
    (final : ScopeState) :
    Prop where
  coherent : final.Coherent scope
  inProgress : final.inProgress = []
  expanding : final.expanding = []

/-- A settled state that knows as much as another one is ahead of it. -/
theorem Settled.ahead
    {scope : Scope}
    {final state : ScopeState}
    (settled : final.Settled scope)
    (coherent : state.Coherent scope)
    (covers : final.Covers state) :
    final.Ahead scope state where
  aheadCoherent := settled.coherent
  behindCoherent := coherent
  covers := covers
  inProgress := by simp [settled.inProgress]
  expanding := by simp [settled.expanding]

end ScopeState

/-! ## Resolutions that keep a state founded -/

/-- A resolution that answers, where the state at the end knows all that it finds. -/
structure Run
    (scope : Scope)
    (final : ScopeState)
    (resolution : Resolve α)
    (state : ScopeState)
    (value : α)
    (after : ScopeState) :
    Prop where
  coherent : state.Coherent scope
  founded : state.Founded scope final
  covers : final.Covers after
  answered : resolution state = (.ok value, after)

/-- A resolution beside an eager one that keeps the state founded. -/
structure Founding
    (scope : Scope)
    (final : ScopeState)
    (agree : α → β → Prop)
    (resolution : Resolve α)
    (ahead : Resolve β) :
    Prop where
  eager : Eager scope agree resolution ahead
  founds : ∀ state value after, Run scope final resolution state value after →
    after.Founded scope final

namespace Founding

variable
  {scope : Scope}
  {final : ScopeState}

/-- A run of two resolutions after one another is a run of each. -/
theorem split
    {agree : α → β → Prop}
    {agreeNext : γ → δ → Prop}
    {first : Resolve α}
    {ahead : Resolve β}
    {next : α → Resolve γ}
    {aheadNext : β → Resolve δ}
    {state after : ScopeState}
    {result : γ}
    (founding : Founding scope final agree first ahead)
    (nextFounding : ∀ value other, agree value other →
      Founding scope final agreeNext (next value) (aheadNext other))
    (run : Run scope final (first.andThen next) state result after) :
    ∃ value other middle, agree value other ∧ Run scope final first state value middle ∧
      Run scope final (next value) middle result after := by
  obtain ⟨value, middle, ran, answered⟩ := Resolve.andThen_ok run.answered
  obtain ⟨_, other, _, _, agrees, isAhead, _⟩ :=
    founding.eager state state value middle run.coherent.ahead ran
  have coherent := isAhead.behindCoherent
  have steady := ((nextFounding value other agrees).eager.steady coherent answered).1
  -- The second part forgets nothing, so the state at the end knows what the first part found.
  have firstRun : Run scope final first state value middle :=
    ⟨run.coherent, run.founded, run.covers.trans steady.covers, ran⟩
  exact ⟨value, other, middle, agrees, firstRun, coherent,
    founding.founds state value middle firstRun, run.covers, answered⟩

/-- The parts of a run that agree with themselves. -/
theorem parts
    {agreeNext : γ → δ → Prop}
    {first ahead : Resolve α}
    {next : α → Resolve γ}
    {aheadNext : α → Resolve δ}
    {state after : ScopeState}
    {result : γ}
    (founding : Founding scope final Eq first ahead)
    (nextFounding : ∀ value, Founding scope final agreeNext (next value) (aheadNext value))
    (run : Run scope final (first.andThen next) state result after) :
    ∃ value middle, Run scope final first state value middle ∧
      Run scope final (next value) middle result after := by
  have next (value other : α) (same : value = other) :
      Founding scope final agreeNext (next value) (aheadNext other) :=
    same ▸ nextFounding value
  obtain ⟨value, _, middle, _, firstRun, nextRun⟩ := founding.split next run
  exact ⟨value, middle, firstRun, nextRun⟩

theorem andThen
    {agree : α → β → Prop}
    {agreeNext : γ → δ → Prop}
    {first : Resolve α}
    {ahead : Resolve β}
    {next : α → Resolve γ}
    {aheadNext : β → Resolve δ}
    (founding : Founding scope final agree first ahead)
    (nextFounding : ∀ value other, agree value other →
      Founding scope final agreeNext (next value) (aheadNext other)) :
    Founding scope final agreeNext (first.andThen next) (ahead.andThen aheadNext) where
  eager := founding.eager.andThen fun value other agrees =>
    (nextFounding value other agrees).eager
  founds := by
    intro state result after run
    obtain ⟨value, other, middle, agrees, _, nextRun⟩ := founding.split nextFounding run
    exact (nextFounding value other agrees).founds middle result after nextRun

/-- A resolution that finds nothing new keeps the state founded. -/
theorem of_finished_eq
    {agree : α → β → Prop}
    {resolution : Resolve α}
    {ahead : Resolve β}
    (eager : Eager scope agree resolution ahead)
    (same : ∀ state value after, resolution state = (.ok value, after) →
      after.finished = state.finished) :
    Founding scope final agree resolution ahead where
  eager
  founds := by
    intro state value after run name found finished
    exact run.founded name found (same state value after run.answered ▸ finished)

end Founding

/-- Resolutions keep a state founded. -/
def founding
    (scope : Scope)
    (final : ScopeState) :
    Congruence where
  Related := Founding scope final
  answer agrees := .of_finished_eq (.answer agrees) fun _ _ _ answered => by
    cases answered
    rfl
  fail left right := .of_finished_eq (.fail left _) fun _ _ _ answered => by cases answered
  warn left right := .of_finished_eq (.warn left right) fun _ _ _ answered => by
    cases answered
    rfl
  andThen := Founding.andThen

namespace Run

variable
  {scope : Scope}
  {final state after : ScopeState}

/-- A run of what is known already comes to what is known. -/
theorem of_ofExcept
    {known : Except UnitError α}
    {value : α}
    (run : Run scope final (.ofExcept known) state value after) :
    known = .ok value := by
  cases known with
  | ok _ =>
      cases run.answered
      rfl
  | error _ => cases run.answered

/-- A run through an alias is a run of its right-hand side. -/
theorem of_expanding
    {decl : TypeDecl}
    {inside : Resolve α}
    {value : α}
    (run : Run scope final (.expanding decl inside) state value after) :
    ∃ middle,
      Run scope final inside { state with expanding := decl.name :: state.expanding } value
        middle ∧
      after.finished = middle.finished := by
  obtain ⟨-, middle, ran, rfl⟩ := Resolve.expanding_ok run.answered
  exact ⟨middle, ⟨run.coherent.expand _, run.founded, run.covers, ran⟩, rfl⟩

/-- A search finds what is remembered, or it is a run of the right-hand side. -/
theorem of_finding
    {decl : TypeDecl}
    {depth : Nat}
    {inside : Resolve Underlying}
    {value : Underlying}
    (tracked : Tracked scope Eq inside (scope.rereading depth decl))
    (run : Run scope final (.finding decl inside) state value after) :
    (state.finished.lookup decl.name = some value ∧ after = state) ∨
      ∃ middle,
        Run scope final inside { state with inProgress := decl.name :: state.inProgress } value
          middle ∧
        after = middle.finish decl.name value := by
  rcases Resolve.finding_ok run.answered with remembered | ⟨unfinished, _, middle, ran, rfl⟩
  · exact Or.inl remembered
  · refine Or.inr ⟨middle, ⟨run.coherent.search unfinished, run.founded, ?_, ran⟩, rfl⟩
    obtain ⟨steady, coherent, _⟩ := tracked _ value middle (run.coherent.search unfinished) ran
    have pending : middle.finished.lookup decl.name = none :=
      coherent.pending decl.name (by simp [steady.inProgress])
    exact run.covers.trans (ScopeState.covers_finish value pending)

end Run

end Implementers
