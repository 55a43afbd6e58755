import Implementers.Proofs.Scope.Congruence

/-!
# What a resolution remembers

A resolution answers a question about a declared name from memory once it has been asked.  A state
is coherent when everything that it remembers can be found again from memory alone, that is without
looking into any declaration but aliases.  Every resolution that answers keeps its state coherent,
restores what it was looking into, and can be repeated from memory afterwards.
-/

namespace Implementers

open Syntax (TypeExpr)

namespace ScopeState

/-- Whatever the earlier state has finished, the later one has finished with the same result. -/
def Covers
    (later earlier : ScopeState) :
    Prop :=
  ∀ name found,
    earlier.finished.lookup name = some found → later.finished.lookup name = some found

/-- A state after another one: nothing is forgotten, and the same declarations are looked into. -/
structure Steady
    (before after : ScopeState) :
    Prop where
  inProgress : after.inProgress = before.inProgress
  expanding : after.expanding = before.expanding
  covers : after.Covers before

/-- A resolution that gives an answer from what a state remembers, and notes nothing new. -/
def Recalls
    (state : ScopeState)
    (reading : Resolve α)
    (value : α) :
    Prop :=
  ∀ later, later.Covers state →
    ∃ after, reading later = (.ok value, after) ∧ after.finished = later.finished

theorem Covers.refl
    (state : ScopeState) :
    state.Covers state :=
  fun _ _ finished => finished

theorem Covers.trans
    {first second third : ScopeState}
    (thirdCovers : third.Covers second)
    (secondCovers : second.Covers first) :
    third.Covers first :=
  fun name found finished => thirdCovers name found (secondCovers name found finished)

/-- Covering a state depends on what it has finished only. -/
theorem Covers.of_finished_eq
    {later later' earlier earlier' : ScopeState}
    (covers : later.Covers earlier)
    (sameLater : later'.finished = later.finished)
    (sameEarlier : earlier'.finished = earlier.finished) :
    later'.Covers earlier' := by
  intro name found finished
  rw [sameLater]
  exact covers name found (sameEarlier ▸ finished)

theorem Steady.refl
    (state : ScopeState) :
    state.Steady state :=
  ⟨rfl, rfl, Covers.refl state⟩

theorem Steady.trans
    {first second third : ScopeState}
    (firstStep : first.Steady second)
    (secondStep : second.Steady third) :
    first.Steady third :=
  ⟨secondStep.inProgress.trans firstStep.inProgress,
    secondStep.expanding.trans firstStep.expanding, secondStep.covers.trans firstStep.covers⟩

/-- What a state recalls, every state that covers it recalls. -/
theorem Recalls.mono
    {later earlier : ScopeState}
    {reading : Resolve α}
    {value : α}
    (recalls : earlier.Recalls reading value)
    (covers : later.Covers earlier) :
    later.Recalls reading value :=
  fun latest latestCovers => recalls latest (latestCovers.trans covers)

/-- Two readings one after the other are a reading. -/
theorem Recalls.andThen
    {state : ScopeState}
    {reading : Resolve α}
    {next : α → Resolve β}
    {value : α}
    {result : β}
    (recalls : state.Recalls reading value)
    (nextRecalls : state.Recalls (next value) result) :
    state.Recalls (reading.andThen next) result := by
  intro later covers
  obtain ⟨middle, read, unchanged⟩ := recalls later covers
  obtain ⟨after, readNext, unchangedNext⟩ :=
    nextRecalls middle (covers.of_finished_eq unchanged rfl)
  refine ⟨after, ?_, unchangedNext.trans unchanged⟩
  simp only [Resolve.andThen, read, readNext]

end ScopeState

namespace Resolve

/-- A resolution after another one answers when both do. -/
theorem andThen_ok
    {first : Resolve α}
    {next : α → Resolve β}
    {state after : ScopeState}
    {result : β}
    (answered : first.andThen next state = (.ok result, after)) :
    ∃ value middle,
      first state = (.ok value, middle) ∧ next value middle = (.ok result, after) := by
  simp only [andThen] at answered
  split at answered
  · next value middle ran => exact ⟨value, middle, ran, answered⟩
  · cases answered

/-- Looking into an alias answers when it is not going on already and the inside answers. -/
theorem expanding_ok
    {decl : TypeDecl}
    {inside : Resolve α}
    {state after : ScopeState}
    {value : α}
    (answered : expanding decl inside state = (.ok value, after)) :
    state.expanding.contains decl.name = false ∧
      ∃ middle,
        inside { state with expanding := decl.name :: state.expanding } = (.ok value, middle) ∧
        after = { middle with expanding := middle.expanding.tail } := by
  simp only [expanding] at answered
  split at answered
  · cases answered
  · next outside =>
      cases ran : inside { state with expanding := decl.name :: state.expanding } with
      | mk outcome middle =>
          rw [ran] at answered
          cases answered
          exact ⟨by simpa using outside, middle, rfl, rfl⟩

/-- Answer what was found underneath a declared name, without looking for it. -/
def fromMemory
    (decl : TypeDecl) :
    Resolve Underlying :=
  fun state =>
    match state.finished.lookup decl.name with
    | some found => (.ok found, state)
    | none => (.error decl.recursive, state)

end Resolve

namespace Scope

/-- What declared names mean from memory: only aliases are looked into. -/
def recalling
    (scope : Scope) :
    Nat → Meaning
  | 0 =>
      { typeOfAlias := fun decl => .fail decl.recursive
        underlying := fun decl => .fail decl.recursive }
  | depth + 1 =>
      let inner := scope.recalling depth
      { typeOfAlias := fun decl => scope.lowerTypeWith inner decl.file decl.spec.type
        underlying := fun decl =>
          if decl.spec.isAlias then
            scope.underlyingWith inner decl.file decl.spec.type
          else
            .fromMemory decl }

/-- What is underneath the right-hand side of a declaration, from memory. -/
def rereading
    (scope : Scope)
    (depth : Nat)
    (decl : TypeDecl) :
    Resolve Underlying :=
  scope.underlyingWith (scope.recalling depth) decl.file decl.spec.type

/-- Looking for a name finds a declaration of that name. -/
theorem lookup?_name
    {scope : Scope}
    {name : String}
    {decl : TypeDecl}
    (found : scope.lookup? name = some decl) :
    decl.name = name := by
  have named := List.find?_some found
  simpa using named

/-- A declaration that is found at all is found under its own name. -/
theorem lookup?_self
    {scope : Scope}
    {name : String}
    {decl : TypeDecl}
    (found : scope.lookup? name = some decl) :
    scope.lookup? decl.name = some decl := by
  rw [lookup?_name found]
  exact found

end Scope

/-- Everything that a state has finished can be found again from memory. -/
def ScopeState.Justified
    (scope : Scope)
    (state : ScopeState) :
    Prop :=
  ∀ name found, state.finished.lookup name = some found →
    ∃ decl depth, scope.lookup? name = some decl ∧ decl.spec.isAlias = false ∧
      state.Recalls (scope.rereading depth decl) found

/-- A state that arises while a package is resolved. -/
structure ScopeState.Coherent
    (scope : Scope)
    (state : ScopeState) :
    Prop where
  pending : ∀ name ∈ state.inProgress, state.finished.lookup name = none
  justified : state.Justified scope

namespace ScopeState

/-- What is justified depends on what is finished only. -/
theorem Justified.of_finished_eq
    {scope : Scope}
    {before after : ScopeState}
    (justified : before.Justified scope)
    (same : after.finished = before.finished) :
    after.Justified scope := by
  intro name found finished
  obtain ⟨decl, depth, declared, notAlias, recalls⟩ := justified name found (same ▸ finished)
  exact ⟨decl, depth, declared, notAlias,
    recalls.mono ((Covers.refl before).of_finished_eq same rfl)⟩

/-- Nothing is remembered at first. -/
theorem initial_coherent
    (scope : Scope) :
    initial.Coherent scope :=
  ⟨fun _ member => by simp [initial] at member, fun _ _ finished => by simp [initial] at finished⟩

/-- Looking into one alias more keeps a state coherent. -/
theorem Coherent.expand
    {scope : Scope}
    {state : ScopeState}
    (coherent : state.Coherent scope)
    (names : List String) :
    { state with expanding := names }.Coherent scope :=
  ⟨coherent.pending, coherent.justified.of_finished_eq rfl⟩

/-- Looking for one unfinished name more keeps a state coherent. -/
theorem Coherent.search
    {scope : Scope}
    {state : ScopeState}
    {name : String}
    (coherent : state.Coherent scope)
    (unfinished : state.finished.lookup name = none) :
    { state with inProgress := name :: state.inProgress }.Coherent scope := by
  refine ⟨?_, coherent.justified.of_finished_eq rfl⟩
  intro other member
  rcases List.mem_cons.mp member with rfl | earlier
  · exact unfinished
  · exact coherent.pending other earlier

/-- The state after a search that found something. -/
def finish
    (name : String)
    (found : Underlying)
    (state : ScopeState) :
    ScopeState :=
  { state with
    finished := (name, found) :: state.finished
    inProgress := state.inProgress.erase name }

/-- What a state has finished after a search: the name itself and everything before. -/
theorem lookup_finish
    (name other : String)
    (found : Underlying)
    (state : ScopeState) :
    (state.finish name found).finished.lookup other =
      if other = name then some found else state.finished.lookup other := by
  by_cases same : other = name
  · simp [finish, same]
  · simp [finish, List.lookup_cons, same, beq_false_of_ne same]

/-- Finishing a name that was not finished forgets nothing. -/
theorem covers_finish
    {name : String}
    {state : ScopeState}
    (found : Underlying)
    (unfinished : state.finished.lookup name = none) :
    (state.finish name found).Covers state := by
  intro other result finished
  have different : other ≠ name := by
    rintro rfl
    rw [unfinished] at finished
    cases finished
  rw [lookup_finish, if_neg different]
  exact finished

/-- A state that knows what a search found covers the state after the search. -/
theorem Covers.finish
    {later earlier : ScopeState}
    {name : String}
    {found : Underlying}
    (covers : later.Covers earlier)
    (known : later.finished.lookup name = some found) :
    later.Covers (earlier.finish name found) := by
  intro other result finished
  rw [lookup_finish] at finished
  split at finished
  · next same =>
      cases finished
      exact same ▸ known
  · exact covers other result finished

/-- Finishing the same search in two states keeps one ahead of the other. -/
theorem Covers.finish_both
    {later earlier : ScopeState}
    (name : String)
    (found : Underlying)
    (covers : later.Covers earlier) :
    (later.finish name found).Covers (earlier.finish name found) := by
  intro other result finished
  rw [lookup_finish] at finished ⊢
  by_cases same : other = name
  · simpa only [if_pos same] using finished
  · simp only [if_neg same] at finished ⊢
    exact covers other result finished

/-- Finishing the search that was begun last keeps a state coherent. -/
theorem Coherent.finish
    {scope : Scope}
    {state : ScopeState}
    {outer : List String}
    {decl : TypeDecl}
    {depth : Nat}
    {found : Underlying}
    (coherent : state.Coherent scope)
    (searching : state.inProgress = decl.name :: outer)
    (fresh : decl.name ∉ outer)
    (declared : scope.lookup? decl.name = some decl)
    (notAlias : decl.spec.isAlias = false)
    (recalls : state.Recalls (scope.rereading depth decl) found) :
    (state.finish decl.name found).Coherent scope := by
  have unfinished : state.finished.lookup decl.name = none :=
    coherent.pending decl.name (by simp [searching])
  have covers := covers_finish found unfinished
  constructor
  · intro other member
    have inOuter : other ∈ outer := by
      simpa [ScopeState.finish, searching] using member
    have different : other ≠ decl.name := by
      rintro rfl
      exact fresh inOuter
    rw [lookup_finish, if_neg different]
    exact coherent.pending other (by simp [searching, inOuter])
  · intro other result finished
    rw [lookup_finish] at finished
    split at finished
    · next same =>
        subst same
        cases finished
        exact ⟨decl, depth, declared, notAlias, recalls.mono covers⟩
    · obtain ⟨otherDecl, otherDepth, otherDeclared, otherNotAlias, otherRecalls⟩ :=
        coherent.justified other result finished
      exact ⟨otherDecl, otherDepth, otherDeclared, otherNotAlias, otherRecalls.mono covers⟩

end ScopeState

/-! ## Every answer can be read again -/

/--
A resolution beside a reading: from a coherent state the resolution leads to a coherent state with
the same declarations being looked into, and the reading gives an agreeing answer from memory.
-/
def Tracked
    (scope : Scope)
    (agree : α → β → Prop)
    (resolution : Resolve α)
    (reading : Resolve β) :
    Prop :=
  ∀ state value after, state.Coherent scope → resolution state = (.ok value, after) →
    state.Steady after ∧ after.Coherent scope ∧
      ∃ recalled, agree value recalled ∧ after.Recalls reading recalled

namespace Tracked

variable {scope : Scope}

theorem answer
    {agree : α → β → Prop}
    {left : α}
    {right : β}
    (agrees : agree left right) :
    Tracked scope agree (.answer left) (.answer right) := by
  intro state value after coherent answered
  cases answered
  exact ⟨.refl state, coherent, right, agrees, fun later _ => ⟨later, rfl, rfl⟩⟩

theorem fail
    {agree : α → β → Prop}
    (error : UnitError)
    (reading : Resolve β) :
    Tracked scope agree (.fail error) reading := by
  intro state value after coherent answered
  cases answered

theorem warn
    (left right : Warning) :
    Tracked scope Eq (.warn left) (.warn right) := by
  intro state value after coherent answered
  cases answered
  exact ⟨⟨rfl, rfl, .refl state⟩, ⟨coherent.pending, coherent.justified.of_finished_eq rfl⟩, (),
    rfl, fun later _ => ⟨{ later with warnings := right :: later.warnings }, rfl, rfl⟩⟩

theorem andThen
    {agree : α → β → Prop}
    {agreeNext : γ → δ → Prop}
    {left : Resolve α}
    {right : Resolve β}
    {leftNext : α → Resolve γ}
    {rightNext : β → Resolve δ}
    (first : Tracked scope agree left right)
    (next : ∀ value recalled, agree value recalled →
      Tracked scope agreeNext (leftNext value) (rightNext recalled)) :
    Tracked scope agreeNext (left.andThen leftNext) (right.andThen rightNext) := by
  intro state result after coherent answered
  obtain ⟨value, middle, ran, answeredNext⟩ := Resolve.andThen_ok answered
  obtain ⟨steady, middleCoherent, recalled, agrees, recalls⟩ :=
    first state value middle coherent ran
  obtain ⟨steadyNext, afterCoherent, result', agreesNext, recallsNext⟩ :=
    next value recalled agrees middle result after middleCoherent answeredNext
  exact ⟨steady.trans steadyNext, afterCoherent, result', agreesNext,
    (recalls.mono steadyNext.covers).andThen recallsNext⟩

/-- Looking into an alias. -/
theorem expanding
    {agree : α → β → Prop}
    {decl : TypeDecl}
    {inside : Resolve α}
    {reading : Resolve β}
    (tracked : Tracked scope agree inside reading) :
    Tracked scope agree (.expanding decl inside) reading := by
  intro state value after coherent answered
  obtain ⟨-, middle, ran, rfl⟩ := Resolve.expanding_ok answered
  obtain ⟨steady, middleCoherent, recalled, agrees, recalls⟩ :=
    tracked _ value middle (coherent.expand _) ran
  refine ⟨⟨steady.inProgress, ?_, steady.covers⟩, middleCoherent.expand _, recalled, agrees,
    recalls.mono ((ScopeState.Covers.refl middle).of_finished_eq rfl rfl)⟩
  simp only [steady.expanding, List.tail_cons]

end Tracked

namespace Resolve

/-- A search that answers: either the name was finished before, or it is finished now. -/
theorem finding_ok
    {decl : TypeDecl}
    {inside : Resolve Underlying}
    {state after : ScopeState}
    {found : Underlying}
    (answered : finding decl inside state = (.ok found, after)) :
    (state.finished.lookup decl.name = some found ∧ after = state) ∨
      (state.finished.lookup decl.name = none ∧ decl.name ∉ state.inProgress ∧
        ∃ middle,
          inside { state with inProgress := decl.name :: state.inProgress } =
            (.ok found, middle) ∧
          after = middle.finish decl.name found) := by
  unfold finding at answered
  split at answered
  · next earlier finished =>
      cases answered
      exact Or.inl ⟨finished, rfl⟩
  · next unfinished =>
      split at answered
      · cases answered
      · next fresh =>
          split at answered
          · next value middle ran =>
              cases answered
              exact Or.inr ⟨unfinished, by simpa using fresh, middle, ran, rfl⟩
          · cases answered

end Resolve

namespace Tracked

/-- Looking for what is underneath a declared name. -/
theorem finding
    {scope : Scope}
    {decl : TypeDecl}
    {depth : Nat}
    {inside : Resolve Underlying}
    (declared : scope.lookup? decl.name = some decl)
    (notAlias : decl.spec.isAlias = false)
    (tracked : Tracked scope Eq inside (scope.rereading depth decl)) :
    Tracked scope Eq (.finding decl inside) (.fromMemory decl) := by
  intro state value after coherent answered
  have recallsFinished {final : ScopeState}
      (finished : final.finished.lookup decl.name = some value) :
      final.Recalls (.fromMemory decl) value := by
    intro later covers
    refine ⟨later, ?_, rfl⟩
    simp only [Resolve.fromMemory, covers _ _ finished]
  rcases Resolve.finding_ok answered with ⟨finished, rfl⟩ | ⟨unfinished, fresh, middle, ran, rfl⟩
  · exact ⟨.refl _, coherent, value, rfl, recallsFinished finished⟩
  · obtain ⟨steady, middleCoherent, recalled, rfl, recalls⟩ :=
      tracked _ value middle (coherent.search unfinished) ran
    have searching : middle.inProgress = decl.name :: state.inProgress := steady.inProgress
    have middleUnfinished : middle.finished.lookup decl.name = none :=
      middleCoherent.pending decl.name (by simp [searching])
    refine ⟨⟨?_, steady.expanding, ?_⟩,
      middleCoherent.finish searching fresh declared notAlias recalls, value, rfl,
      recallsFinished ?_⟩
    · simp [ScopeState.finish, searching]
    · exact (ScopeState.covers_finish value middleUnfinished).trans steady.covers
    · simp [ScopeState.lookup_finish]

end Tracked

/-- Every answer can be read again. -/
def tracking
    (scope : Scope) :
    Congruence where
  Related := Tracked scope
  answer := Tracked.answer
  fail left _ := Tracked.fail left _
  warn := Tracked.warn
  andThen := Tracked.andThen

/-- What declared names mean can be read again. -/
theorem tracking_meaning
    (scope : Scope)
    (depth : Nat) :
    (tracking scope).Agreement .stay scope (scope.meaning depth) (scope.recalling depth) := by
  induction depth with
  | zero => exact .inPlace (fun _ _ _ _ => Tracked.fail _ _) fun _ _ _ => Tracked.fail _ _
  | succ depth inductionHypothesis =>
      refine .inPlace ?_ ?_
      · intro name decl _ _
        exact ((tracking scope).lowerTypeWith_stay inductionHypothesis _ _).expanding
      · intro name decl declared
        have inside := (tracking scope).underlyingWith_stay inductionHypothesis decl.file
          decl.spec.type
        simp only [Scope.meaning, Scope.recalling]
        cases isAlias : decl.spec.isAlias with
        | true => exact inside.expanding
        | false => exact inside.finding (Scope.lookup?_self declared) isAlias

/-! ## Reading tells what a resolution finds -/

/--
A resolution beside a reading: where the reading succeeds in a state that covers the one at the
start, the resolution finds nothing that this state does not have, and its answer agrees.
-/
def Confined
    (scope : Scope)
    (agree : α → β → Prop)
    (resolution : Resolve α)
    (reading : Resolve β) :
    Prop :=
  ∀ state value after memory recalled memoryAfter,
    memory.Justified scope → memory.Covers state →
    resolution state = (.ok value, after) → reading memory = (.ok recalled, memoryAfter) →
    agree value recalled ∧ memory.Covers after ∧ memoryAfter.finished = memory.finished

namespace Confined

variable {scope : Scope}

theorem answer
    {agree : α → β → Prop}
    {left : α}
    {right : β}
    (agrees : agree left right) :
    Confined scope agree (.answer left) (.answer right) := by
  intro state value after memory recalled memoryAfter _ covers answered read
  cases answered
  cases read
  exact ⟨agrees, covers, rfl⟩

theorem fail
    {agree : α → β → Prop}
    (error : UnitError)
    (reading : Resolve β) :
    Confined scope agree (.fail error) reading := by
  intro state value after memory recalled memoryAfter _ _ answered
  cases answered

theorem fail_right
    {agree : α → β → Prop}
    (resolution : Resolve α)
    (error : UnitError) :
    Confined scope agree resolution (.fail error) := by
  intro state value after memory recalled memoryAfter _ _ _ read
  cases read

theorem warn
    (left right : Warning) :
    Confined scope Eq (.warn left) (.warn right) := by
  intro state value after memory recalled memoryAfter _ covers answered read
  cases answered
  cases read
  exact ⟨rfl, covers, rfl⟩

theorem andThen
    {agree : α → β → Prop}
    {agreeNext : γ → δ → Prop}
    {left : Resolve α}
    {right : Resolve β}
    {leftNext : α → Resolve γ}
    {rightNext : β → Resolve δ}
    (first : Confined scope agree left right)
    (next : ∀ value recalled, agree value recalled →
      Confined scope agreeNext (leftNext value) (rightNext recalled)) :
    Confined scope agreeNext (left.andThen leftNext) (right.andThen rightNext) := by
  intro state result after memory recalled memoryAfter justified covers answered read
  obtain ⟨value, middle, ran, answeredNext⟩ := Resolve.andThen_ok answered
  obtain ⟨value', memoryMiddle, readFirst, readNext⟩ := Resolve.andThen_ok read
  obtain ⟨agrees, coversMiddle, unchanged⟩ :=
    first state value middle memory value' memoryMiddle justified covers ran readFirst
  obtain ⟨agreesNext, coversAfter, unchangedNext⟩ :=
    next value value' agrees middle result after memoryMiddle recalled memoryAfter
      (justified.of_finished_eq unchanged) (coversMiddle.of_finished_eq unchanged rfl)
      answeredNext readNext
  exact ⟨agreesNext, coversAfter.of_finished_eq unchanged.symm rfl, unchangedNext.trans unchanged⟩

/-- Looking into an alias. -/
theorem expanding
    {agree : α → β → Prop}
    {decl : TypeDecl}
    {inside : Resolve α}
    {reading : Resolve β}
    (confined : Confined scope agree inside reading) :
    Confined scope agree (.expanding decl inside) reading := by
  intro state value after memory recalled memoryAfter justified covers answered read
  obtain ⟨-, middle, ran, rfl⟩ := Resolve.expanding_ok answered
  exact confined { state with expanding := decl.name :: state.expanding } value middle memory
    recalled memoryAfter justified covers ran read

/-- Looking for what is underneath a declared name. -/
theorem finding
    {decl : TypeDecl}
    {inside : Resolve Underlying}
    (declared : scope.lookup? decl.name = some decl)
    (confined : ∀ depth, Confined scope Eq inside (scope.rereading depth decl)) :
    Confined scope Eq (.finding decl inside) (.fromMemory decl) := by
  intro state value after memory recalled memoryAfter justified covers answered read
  simp only [Resolve.fromMemory] at read
  split at read
  · next known remembered =>
      cases read
      rcases Resolve.finding_ok answered with ⟨finished, rfl⟩ | ⟨_, _, middle, ran, rfl⟩
      · have same := covers _ _ finished
        rw [remembered] at same
        exact ⟨(Option.some.inj same).symm, covers, rfl⟩
      · obtain ⟨other, depth, otherDeclared, _, recalls⟩ := justified _ _ remembered
        obtain rfl : decl = other := Option.some.inj (declared.symm.trans otherDeclared)
        obtain ⟨memoryMiddle, readInside, _⟩ := recalls memory (.refl memory)
        obtain ⟨rfl, coversMiddle, _⟩ :=
          confined depth { state with inProgress := decl.name :: state.inProgress } value middle
            memory recalled memoryMiddle justified covers ran readInside
        exact ⟨rfl, coversMiddle.finish remembered, rfl⟩
  · cases read

end Confined

/-- Reading tells what a resolution finds. -/
def confining
    (scope : Scope) :
    Congruence where
  Related := Confined scope
  answer := Confined.answer
  fail left _ := Confined.fail left _
  warn := Confined.warn
  andThen := Confined.andThen

/-- Reading tells what is found about declared names, however deep either looks. -/
theorem confining_meaning
    (scope : Scope)
    (depth : Nat) :
    ∀ reach,
      (confining scope).Agreement .stay scope (scope.meaning depth) (scope.recalling reach) := by
  induction depth with
  | zero =>
      intro reach
      exact .inPlace (fun _ _ _ _ => Confined.fail _ _) fun _ _ _ => Confined.fail _ _
  | succ depth inductionHypothesis =>
      intro reach
      cases reach with
      | zero =>
          exact .inPlace (fun _ _ _ _ => Confined.fail_right _ _) fun _ _ _ =>
            Confined.fail_right _ _
      | succ reach =>
          refine .inPlace ?_ ?_
          · intro name decl _ _
            exact ((confining scope).lowerTypeWith_stay (inductionHypothesis reach) _ _).expanding
          · intro name decl declared
            have inside (within : Nat) :=
              (confining scope).underlyingWith_stay (inductionHypothesis within) decl.file
                decl.spec.type
            simp only [Scope.meaning, Scope.recalling]
            cases isAlias : decl.spec.isAlias with
            | true => exact (inside reach).expanding
            | false => exact Confined.finding (Scope.lookup?_self declared) inside

/-- What is underneath a right-hand side can be read again. -/
theorem Scope.tracked_rereading
    (scope : Scope)
    (depth : Nat)
    (decl : TypeDecl) :
    Tracked scope Eq
      (scope.underlyingWith (scope.meaning depth) decl.file decl.spec.type)
      (scope.rereading depth decl) :=
  (tracking scope).underlyingWith_stay (tracking_meaning scope depth) decl.file decl.spec.type

/-- Reading tells what is underneath a right-hand side, however deep either looks. -/
theorem Scope.confined_rereading
    (scope : Scope)
    (depth : Nat)
    (decl : TypeDecl)
    (reach : Nat) :
    Confined scope Eq
      (scope.underlyingWith (scope.meaning depth) decl.file decl.spec.type)
      (scope.rereading reach decl) :=
  (confining scope).underlyingWith_stay (confining_meaning scope depth reach) decl.file
    decl.spec.type

/-! ## Knowing more and looking into less never hurts -/

/-- A state that knows at least as much as another one and looks into no more declarations. -/
structure ScopeState.Ahead
    (scope : Scope)
    (ahead behind : ScopeState) :
    Prop where
  aheadCoherent : ahead.Coherent scope
  behindCoherent : behind.Coherent scope
  covers : ahead.Covers behind
  inProgress : ahead.inProgress ⊆ behind.inProgress
  expanding : ahead.expanding ⊆ behind.expanding

/--
Where the first resolution answers, the second one answers in every state that is ahead, and it
stays ahead.  It finds nothing new in a state that has everything the first one finds.
-/
def Eager
    (scope : Scope)
    (agree : α → β → Prop)
    (behindRun : Resolve α)
    (aheadRun : Resolve β) :
    Prop :=
  ∀ behind ahead value after, ahead.Ahead scope behind → behindRun behind = (.ok value, after) →
    behind.Steady after ∧
      ∃ other aheadAfter, aheadRun ahead = (.ok other, aheadAfter) ∧ agree value other ∧
        aheadAfter.Ahead scope after ∧
        (ahead.Covers after → aheadAfter.finished = ahead.finished)

namespace Eager

variable {scope : Scope}

theorem answer
    {agree : α → β → Prop}
    {left : α}
    {right : β}
    (agrees : agree left right) :
    Eager scope agree (.answer left) (.answer right) := by
  intro behind ahead value after isAhead answered
  cases answered
  exact ⟨.refl behind, right, ahead, rfl, agrees, isAhead, fun _ => rfl⟩

theorem fail
    {agree : α → β → Prop}
    (error : UnitError)
    (aheadRun : Resolve β) :
    Eager scope agree (.fail error) aheadRun := by
  intro behind ahead value after _ answered
  cases answered

theorem warn
    (left right : Warning) :
    Eager scope Eq (.warn left) (.warn right) := by
  intro behind ahead value after isAhead answered
  cases answered
  refine ⟨⟨rfl, rfl, .refl behind⟩, (), _, rfl, rfl,
    ⟨⟨isAhead.aheadCoherent.pending, ?_⟩, ⟨isAhead.behindCoherent.pending, ?_⟩, isAhead.covers,
      isAhead.inProgress, isAhead.expanding⟩, fun _ => rfl⟩
  · exact isAhead.aheadCoherent.justified.of_finished_eq rfl
  · exact isAhead.behindCoherent.justified.of_finished_eq rfl

theorem andThen
    {agree : α → β → Prop}
    {agreeNext : γ → δ → Prop}
    {left : Resolve α}
    {right : Resolve β}
    {leftNext : α → Resolve γ}
    {rightNext : β → Resolve δ}
    (first : Eager scope agree left right)
    (next : ∀ value other, agree value other →
      Eager scope agreeNext (leftNext value) (rightNext other)) :
    Eager scope agreeNext (left.andThen leftNext) (right.andThen rightNext) := by
  intro behind ahead result after isAhead answered
  obtain ⟨value, middle, ran, answeredNext⟩ := Resolve.andThen_ok answered
  obtain ⟨steady, other, aheadMiddle, aheadRan, agrees, middleAhead, unchanged⟩ :=
    first behind ahead value middle isAhead ran
  obtain ⟨steadyNext, otherResult, aheadAfter, aheadAnswered, agreesNext, afterAhead,
      unchangedNext⟩ :=
    next value other agrees middle aheadMiddle result after middleAhead answeredNext
  refine ⟨steady.trans steadyNext, otherResult, aheadAfter, ?_, agreesNext, afterAhead, ?_⟩
  · simp only [Resolve.andThen, aheadRan, aheadAnswered]
  · intro coversAfter
    have sameMiddle := unchanged (coversAfter.trans steadyNext.covers)
    exact (unchangedNext (coversAfter.of_finished_eq sameMiddle rfl)).trans sameMiddle

/-- Looking into an alias. -/
theorem expanding
    {agree agreeReading aheadAgreeReading : α → α → Prop}
    {decl : TypeDecl}
    {inside aheadInside reading aheadReading : Resolve α}
    (tracked : Tracked scope agreeReading inside reading)
    (aheadTracked : Tracked scope aheadAgreeReading aheadInside aheadReading)
    (eager : Eager scope agree inside aheadInside) :
    Eager scope agree (.expanding decl inside) (.expanding decl aheadInside) := by
  intro behind ahead value after isAhead answered
  have steady := (tracked.expanding _ _ _ isAhead.behindCoherent answered).1
  obtain ⟨outside, middle, ran, rfl⟩ := Resolve.expanding_ok answered
  have aheadOutside : ahead.expanding.contains decl.name = false := by
    simp only [List.contains_eq_mem, decide_eq_false_iff_not] at outside ⊢
    exact fun member => outside (isAhead.expanding member)
  have within : { ahead with expanding := decl.name :: ahead.expanding }.Ahead scope
      { behind with expanding := decl.name :: behind.expanding } :=
    ⟨isAhead.aheadCoherent.expand _, isAhead.behindCoherent.expand _,
      isAhead.covers.of_finished_eq rfl rfl, isAhead.inProgress,
      List.cons_subset_cons _ isAhead.expanding⟩
  obtain ⟨_, other, aheadMiddle, aheadRan, agrees, middleAhead, unchanged⟩ :=
    eager _ _ _ _ within ran
  have aheadAnswered : Resolve.expanding decl aheadInside ahead =
      (.ok other, { aheadMiddle with expanding := aheadMiddle.expanding.tail }) := by
    simp only [Resolve.expanding, aheadOutside, Bool.false_eq_true, ↓reduceIte, aheadRan]
  have aheadSteady := (aheadTracked.expanding _ _ _ isAhead.aheadCoherent aheadAnswered).1
  refine ⟨steady, other, _, aheadAnswered, agrees,
    ⟨middleAhead.aheadCoherent.expand _, middleAhead.behindCoherent.expand _,
      middleAhead.covers.of_finished_eq rfl rfl, middleAhead.inProgress, ?_⟩, unchanged⟩
  rw [steady.expanding, aheadSteady.expanding]
  exact isAhead.expanding

/-- A search from a state that has not found the name, when one that is ahead has found it. -/
theorem finding_known
    {decl : TypeDecl}
    {inside : Resolve Underlying}
    {behind middle ahead : ScopeState}
    {value known : Underlying}
    (declared : scope.lookup? decl.name = some decl)
    (confined : ∀ depth, Confined scope Eq inside (scope.rereading depth decl))
    (isAhead : ahead.Ahead scope behind)
    (remembered : ahead.finished.lookup decl.name = some known)
    (ran :
      inside { behind with inProgress := decl.name :: behind.inProgress } = (.ok value, middle)) :
    known = value ∧ ahead.Covers (middle.finish decl.name value) := by
  obtain ⟨other, depth, otherDeclared, _, recalls⟩ :=
    isAhead.aheadCoherent.justified _ _ remembered
  obtain rfl : decl = other := Option.some.inj (declared.symm.trans otherDeclared)
  obtain ⟨memoryAfter, read, _⟩ := recalls ahead (.refl ahead)
  obtain ⟨rfl, coversMiddle, _⟩ :=
    confined depth { behind with inProgress := decl.name :: behind.inProgress } value middle ahead
      known memoryAfter isAhead.aheadCoherent.justified isAhead.covers ran read
  exact ⟨rfl, coversMiddle.finish remembered⟩

/-- Looking for what is underneath a declared name. -/
theorem finding
    {decl : TypeDecl}
    {depth reach : Nat}
    {inside aheadInside : Resolve Underlying}
    (declared : scope.lookup? decl.name = some decl)
    (notAlias : decl.spec.isAlias = false)
    (tracked : Tracked scope Eq inside (scope.rereading depth decl))
    (aheadTracked : Tracked scope Eq aheadInside (scope.rereading reach decl))
    (confined : ∀ depth, Confined scope Eq inside (scope.rereading depth decl))
    (eager : Eager scope Eq inside aheadInside) :
    Eager scope Eq (.finding decl inside) (.finding decl aheadInside) := by
  intro behind ahead value after isAhead answered
  obtain ⟨steady, afterCoherent, _⟩ :=
    Tracked.finding declared notAlias tracked _ _ _ isAhead.behindCoherent answered
  have alreadyKnown {known : Underlying}
      (remembered : ahead.finished.lookup decl.name = some known) :
      Resolve.finding decl aheadInside ahead = (.ok known, ahead) := by
    simp only [Resolve.finding, remembered]
  refine ⟨steady, ?_⟩
  rcases Resolve.finding_ok answered with ⟨finished, rfl⟩ | ⟨unfinished, fresh, middle, ran, rfl⟩
  · exact ⟨value, ahead, alreadyKnown (isAhead.covers _ _ finished), rfl, isAhead, fun _ => rfl⟩
  · cases remembered : ahead.finished.lookup decl.name with
    | some known =>
        obtain ⟨rfl, covers⟩ := finding_known declared confined isAhead remembered ran
        refine ⟨known, ahead, alreadyKnown remembered, rfl,
          ⟨isAhead.aheadCoherent, afterCoherent, covers, ?_, ?_⟩, fun _ => rfl⟩
        · simpa only [steady.inProgress] using isAhead.inProgress
        · simpa only [steady.expanding] using isAhead.expanding
    | none =>
        have within : { ahead with inProgress := decl.name :: ahead.inProgress }.Ahead scope
            { behind with inProgress := decl.name :: behind.inProgress } :=
          ⟨isAhead.aheadCoherent.search remembered, isAhead.behindCoherent.search unfinished,
            isAhead.covers, List.cons_subset_cons _ isAhead.inProgress, isAhead.expanding⟩
        obtain ⟨_, _, aheadMiddle, aheadRan, rfl, middleAhead, _⟩ := eager _ _ _ _ within ran
        have aheadFresh : ahead.inProgress.contains decl.name = false := by
          simp only [List.contains_eq_mem, decide_eq_false_iff_not]
          exact fun member => fresh (isAhead.inProgress member)
        have aheadAnswered : Resolve.finding decl aheadInside ahead =
            (.ok value, aheadMiddle.finish decl.name value) := by
          simp only [Resolve.finding, remembered, aheadFresh, Bool.false_eq_true, ↓reduceIte,
            aheadRan]
          rfl
        obtain ⟨aheadSteady, aheadCoherent, _⟩ :=
          Tracked.finding declared notAlias aheadTracked _ _ _ isAhead.aheadCoherent aheadAnswered
        refine ⟨value, _, aheadAnswered, rfl,
          ⟨aheadCoherent, afterCoherent, middleAhead.covers.finish_both _ _, ?_, ?_⟩, ?_⟩
        · simpa only [steady.inProgress, aheadSteady.inProgress] using isAhead.inProgress
        · simpa only [steady.expanding, aheadSteady.expanding] using isAhead.expanding
        · intro coversAfter
          have found := coversAfter decl.name value (by simp [ScopeState.lookup_finish])
          rw [remembered] at found
          cases found

end Eager

/-- A state that is ahead of one that is ahead of a third. -/
theorem ScopeState.Ahead.trans
    {scope : Scope}
    {first second third : ScopeState}
    (thirdAhead : third.Ahead scope second)
    (secondAhead : second.Ahead scope first) :
    third.Ahead scope first :=
  ⟨thirdAhead.aheadCoherent, secondAhead.behindCoherent,
    thirdAhead.covers.trans secondAhead.covers,
    List.Subset.trans thirdAhead.inProgress secondAhead.inProgress,
    List.Subset.trans thirdAhead.expanding secondAhead.expanding⟩

/-- A state after another one is ahead of it. -/
theorem ScopeState.Steady.ahead
    {scope : Scope}
    {before after : ScopeState}
    (steady : before.Steady after)
    (beforeCoherent : before.Coherent scope)
    (afterCoherent : after.Coherent scope) :
    after.Ahead scope before :=
  ⟨afterCoherent, beforeCoherent, steady.covers, fun _ => (steady.inProgress ▸ ·),
    fun _ => (steady.expanding ▸ ·)⟩

/-- A coherent state is ahead of itself. -/
theorem ScopeState.Coherent.ahead
    {scope : Scope}
    {state : ScopeState}
    (coherent : state.Coherent scope) :
    state.Ahead scope state :=
  ⟨coherent, coherent, .refl state, List.Subset.refl _, List.Subset.refl _⟩

/-- An answer from a coherent state leads to a coherent state that forgets nothing. -/
theorem Eager.steady
    {scope : Scope}
    {agree : α → β → Prop}
    {behindRun : Resolve α}
    {aheadRun : Resolve β}
    (eager : Eager scope agree behindRun aheadRun)
    {state after : ScopeState}
    {value : α}
    (coherent : state.Coherent scope)
    (answered : behindRun state = (.ok value, after)) :
    state.Steady after ∧ after.Coherent scope := by
  obtain ⟨steady, _, _, _, _, isAhead, _⟩ := eager _ _ _ _ coherent.ahead answered
  exact ⟨steady, isAhead.behindCoherent⟩

/-- Knowing more and looking into less never hurts. -/
def hastening
    (scope : Scope) :
    Congruence where
  Related := Eager scope
  answer := Eager.answer
  fail left _ := Eager.fail left _
  warn := Eager.warn
  andThen := Eager.andThen

/--
Knowing more and looking into less never hurts the meaning of declared names, and neither does a
higher bound on the declarations inside each other.
-/
theorem hastening_meaning_le
    (scope : Scope)
    (depth : Nat) :
    ∀ {reach : Nat}, depth ≤ reach →
      (hastening scope).Agreement .stay scope (scope.meaning depth) (scope.meaning reach) := by
  induction depth with
  | zero => exact fun _ => .inPlace (fun _ _ _ _ => Eager.fail _ _) fun _ _ _ => Eager.fail _ _
  | succ depth inductionHypothesis =>
      intro reach further
      obtain ⟨reach, rfl⟩ : ∃ smaller, reach = smaller + 1 := ⟨reach - 1, by omega⟩
      have agreement := inductionHypothesis (Nat.le_of_succ_le_succ further)
      refine .inPlace ?_ ?_
      · intro name decl _ _
        have tracked (within : Nat) :=
          (tracking scope).lowerTypeWith_stay (tracking_meaning scope within) decl.file
            decl.spec.type
        exact Eager.expanding (tracked depth) (tracked reach)
          ((hastening scope).lowerTypeWith_stay agreement decl.file decl.spec.type)
      · intro name decl declared
        have tracked (within : Nat) := scope.tracked_rereading within decl
        have eager := (hastening scope).underlyingWith_stay agreement decl.file decl.spec.type
        simp only [Scope.meaning]
        cases isAlias : decl.spec.isAlias with
        | true => exact Eager.expanding (tracked depth) (tracked reach) eager
        | false =>
            exact Eager.finding (Scope.lookup?_self declared) isAlias (tracked depth)
              (tracked reach) (scope.confined_rereading depth decl) eager

/-- Knowing more and looking into less never hurts the meaning of declared names. -/
theorem hastening_meaning
    (scope : Scope)
    (depth : Nat) :
    (hastening scope).Agreement .stay scope (scope.meaning depth) (scope.meaning depth) :=
  hastening_meaning_le scope depth (Nat.le_refl depth)

end Implementers
