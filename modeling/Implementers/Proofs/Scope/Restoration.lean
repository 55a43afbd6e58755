import Implementers.Proofs.Order.Declarations

/-!
# What a call leaves behind

The calls that lower a type, look for what is underneath a name and gather the methods of an
interface share one state and call each other through it.  Whether such a call answers or fails,
afterwards the same aliases are being expanded and the same names looked for as before, and nothing
that was finished is changed.  What is finished for a name is what would be found underneath it from
the very beginning, if that succeeds.
-/

namespace Implementers

open Syntax (TypeExpr Elem)

/-! ## Calls and the states that they are made in -/

namespace Scope

/-- A question about the types of a package that is answered by looking into its declarations. -/
inductive Call where
  | lowerType (file : FileScope) (expr : TypeExpr)
  | underlyingOf (name : String)
  | interfaceMethods (file : FileScope) (elems : List Elem)

namespace Call

/-- What a call answers with. -/
def Answer : Call → Type
  | .lowerType _ _ => Ty
  | .underlyingOf _ => Underlying
  | .interfaceMethods _ _ => InterfaceMethods

/-- The resolution that a call runs. -/
def run
    (scope : Scope) :
    (call : Call) → Resolve call.Answer
  | .lowerType file expr => scope.lowerType file expr
  | .underlyingOf name => scope.underlyingOf name
  | .interfaceMethods file elems => scope.interfaceMethods file elems

end Call

/--
The states in which calls are made.  There is the state at the beginning, the state that a call
leaves behind, be it an answer or an error, and the state inside a call: within the right-hand side
of an alias that is not being expanded yet, or within that of a declaration that is neither finished
nor being looked for yet.  Noting a warning changes nothing else.
-/
inductive Reachable
    (scope : Scope) :
    ScopeState → Prop where
  | initial : Reachable scope .initial
  | behind
      {state : ScopeState}
      (reachable : Reachable scope state)
      (call : Call) :
      Reachable scope (call.run scope state).2
  | warned
      {state : ScopeState}
      (reachable : Reachable scope state)
      (warning : Warning) :
      Reachable scope { state with warnings := warning :: state.warnings }
  | expanding
      {state : ScopeState}
      {decl : TypeDecl}
      (reachable : Reachable scope state)
      (declared : scope.lookup? decl.name = some decl)
      (isAlias : decl.spec.isAlias = true)
      (outside : decl.name ∉ state.expanding) :
      Reachable scope { state with expanding := decl.name :: state.expanding }
  | finding
      {state : ScopeState}
      {decl : TypeDecl}
      (reachable : Reachable scope state)
      (declared : scope.lookup? decl.name = some decl)
      (notAlias : decl.spec.isAlias = false)
      (unfinished : state.finished.lookup decl.name = none)
      (outside : decl.name ∉ state.inProgress) :
      Reachable scope { state with inProgress := decl.name :: state.inProgress }

end Scope

/--
Everything that a state has finished belongs to a declared type, and it is what would be found
underneath this type from the very beginning, if that succeeds.
-/
def ScopeState.Faithful
    (scope : Scope)
    (state : ScopeState) :
    Prop :=
  ∀ name found, state.finished.lookup name = some found →
    ∃ decl, scope.lookup? name = some decl ∧ decl.spec.isAlias = false ∧
      ∀ fresh after, scope.underlyingOf name .initial = (.ok fresh, after) → found = fresh

/-! ## Effects -/

/-- How the states before and behind a resolution are related, whether it answers or fails. -/
structure Effect where
  Leads : ScopeState → ScopeState → Prop
  refl : ∀ state, Leads state state
  trans : ∀ {first second third}, Leads first second → Leads second third → Leads first third
  warned : ∀ state warning, Leads state { state with warnings := warning :: state.warnings }

namespace Effect

variable
  (effect : Effect)

/-- A resolution has an effect on every state. -/
def Of
    (resolution : Resolve α) :
    Prop :=
  ∀ state, effect.Leads state (resolution state).2

variable
  {effect}

/-- One effect after the other; behind a failure there is only the first. -/
theorem Of.andThen
    {first : Resolve α}
    {next : α → Resolve β}
    (ofFirst : effect.Of first)
    (ofNext : ∀ value state, first state = (.ok value, (first state).2) → effect.Of (next value)) :
    effect.Of (first.andThen next) := by
  intro state
  have leads := ofFirst state
  simp only [Resolve.andThen]
  cases ran : first state with
  | mk outcome middle =>
      rw [ran] at leads
      cases outcome with
      | error _ => exact leads
      | ok value => exact effect.trans leads (ofNext value state (by rw [ran]) middle)

/-- Asking questions that may have an answer has the effect of each of them. -/
theorem Of.collect
    {ask : ι → Resolve (Option α)}
    (ofEach : ∀ question, effect.Of (ask question))
    (questions : List ι) :
    effect.Of (Resolve.collect ask questions) := by
  induction questions with
  | nil => exact effect.refl
  | cons question rest inductionHypothesis =>
      apply (ofEach question).andThen
      intro _ _ _
      apply inductionHypothesis.andThen
      exact fun _ _ _ => effect.refl

variable
  (effect)

/-- Resolutions with an effect, beside those that may agree with their answers. -/
def congruence : Congruence where
  Related agree left _ :=
    effect.Of left ∧
      ∀ state value after, left state = (.ok value, after) → ∃ other, agree value other
  answer agrees :=
    ⟨effect.refl, fun _ _ _ answered => by cases answered; exact ⟨_, agrees⟩⟩
  fail _ _ := ⟨effect.refl, fun _ _ _ answered => nomatch answered⟩
  warn left _ := ⟨fun state => effect.warned state left, fun _ value _ _ => ⟨value, rfl⟩⟩
  andThen first next := by
    constructor
    · apply first.1.andThen
      intro value state ran
      obtain ⟨other, agrees⟩ := first.2 state value _ ran
      exact (next value other agrees).1
    · intro state result after answered
      obtain ⟨value, middle, ran, answeredNext⟩ := Resolve.andThen_ok answered
      obtain ⟨other, agrees⟩ := first.2 state value middle ran
      exact (next value other agrees).2 middle result after answeredNext

variable
  {effect}
  {scope : Scope}
  (agreement :
    effect.congruence.Agreement .stay scope scope.declMeaning scope.declMeaning)

include agreement

/-- An effect of the meanings of declared names is one of every call. -/
theorem of_call
    (call : Scope.Call) :
    effect.Of (call.run scope) := by
  cases call with
  | lowerType file expr => exact (effect.congruence.lowerTypeWith_stay agreement file expr).1
  | underlyingOf name => exact (effect.congruence.underlyingOf (.stay scope) agreement name).1
  | interfaceMethods file elems =>
      exact (effect.congruence.interfaceMethodsWith_stay agreement file [] {} elems).1

/-- An effect of the meanings of declared names is one of the resolution of the whole package. -/
theorem of_symbols :
    effect.Of scope.symbols := by
  apply (effect.congruence.addMethodDecls_stay agreement .empty scope.funcDecls).1.andThen
  intro table _ _
  apply Of.andThen
  · rw [Scope.declSymbols_eq_collect]
    exact .collect (fun decl => (effect.congruence.declSymbol?_stay agreement table decl).1) _
  · intro types _ _
    apply Of.andThen
    · rw [Scope.siteSymbols_eq_collect]
      exact .collect (fun site => (effect.congruence.siteSymbol?_stay agreement table site).1) _
    · exact fun _ _ _ => effect.refl

end Effect

/-! ## Coherent states are kept -/

namespace Resolve

/-- A search that fails: either it never began, or what was begun is not going on any more. -/
theorem finding_error
    {decl : TypeDecl}
    {inside : Resolve Underlying}
    {state after : ScopeState}
    {error : UnitError}
    (failed : finding decl inside state = (.error error, after)) :
    after = state ∨
      (state.finished.lookup decl.name = none ∧
        ∃ middle,
          inside { state with inProgress := decl.name :: state.inProgress } =
            (.error error, middle) ∧
          after = { middle with inProgress := middle.inProgress.erase decl.name }) := by
  unfold finding at failed
  split at failed
  · cases failed
  · next unfinished =>
      split at failed
      · cases failed
        exact .inl rfl
      · split at failed
        · cases failed
        · next middle ran =>
            cases failed
            exact .inr ⟨unfinished, middle, ran, rfl⟩

end Resolve

/-- From a coherent state to a coherent one that looks into the same declarations. -/
def framing
    (scope : Scope) :
    Effect where
  Leads before after := before.Coherent scope → before.Steady after ∧ after.Coherent scope
  refl state coherent := ⟨.refl state, coherent⟩
  trans first second coherent := by
    obtain ⟨steady, middleCoherent⟩ := first coherent
    obtain ⟨steadyNext, afterCoherent⟩ := second middleCoherent
    exact ⟨steady.trans steadyNext, afterCoherent⟩
  warned state _ coherent :=
    ⟨⟨rfl, rfl, .refl state⟩, coherent.pending, coherent.justified.of_finished_eq rfl⟩

namespace framing

variable
  {scope : Scope}
  {decl : TypeDecl}

/-- Whatever comes of looking into an alias, it is not being expanded any more. -/
theorem of_expanding
    {inside : Resolve α}
    (ofInside : (framing scope).Of inside) :
    (framing scope).Of (.expanding decl inside) := by
  intro state coherent
  simp only [Resolve.expanding]
  split
  · exact ⟨.refl state, coherent⟩
  · -- What is inside keeps the whole list, so its head is still the alias that was put there.
    obtain ⟨steady, afterCoherent⟩ :=
      ofInside { state with expanding := decl.name :: state.expanding } (coherent.expand _)
    generalize inside { state with expanding := decl.name :: state.expanding } = outcome
      at steady afterCoherent
    refine ⟨⟨steady.inProgress, ?_, steady.covers⟩, afterCoherent.expand _⟩
    simp only [steady.expanding, List.tail_cons]

/-- Whatever comes of a search, the name is not being looked for any more. -/
theorem of_finding
    {depth : Nat}
    {inside : Resolve Underlying}
    (declared : scope.lookup? decl.name = some decl)
    (notAlias : decl.spec.isAlias = false)
    (tracked : Tracked scope Eq inside (scope.rereading depth decl))
    (ofInside : (framing scope).Of inside) :
    (framing scope).Of (.finding decl inside) := by
  intro state coherent
  cases outcome : Resolve.finding decl inside state with
  | mk answer after =>
      cases answer with
      | ok found =>
          obtain ⟨steady, afterCoherent, _⟩ :=
            Tracked.finding declared notAlias tracked _ _ _ coherent outcome
          exact ⟨steady, afterCoherent⟩
      | error error =>
          -- The name does not become finished by a failure; only its mark has to be accounted for.
          rcases Resolve.finding_error outcome with rfl | ⟨unfinished, middle, ran, rfl⟩
          · exact ⟨.refl _, coherent⟩
          · obtain ⟨steady, middleCoherent⟩ :=
              ofInside { state with inProgress := decl.name :: state.inProgress }
                (coherent.search unfinished)
            rw [ran] at steady middleCoherent
            have restored : middle.inProgress.erase decl.name = state.inProgress := by
              rw [steady.inProgress, List.erase_cons_head]
            refine ⟨⟨restored, steady.expanding, steady.covers⟩, ?_,
              middleCoherent.justified.of_finished_eq rfl⟩
            intro name member
            exact middleCoherent.pending name (List.mem_of_mem_erase member)

end framing

/-- Declared names keep states coherent, however deep they look. -/
theorem framing_meaning
    (scope : Scope)
    (depth : Nat) :
    (framing scope).congruence.Agreement .stay scope (scope.meaning depth)
      (scope.meaning depth) := by
  induction depth with
  | zero =>
      exact .inPlace (fun _ _ _ _ => (framing scope).congruence.fail _ _) fun _ _ _ =>
        (framing scope).congruence.fail _ _
  | succ depth inductionHypothesis =>
      apply Congruence.Agreement.inPlace
      · intro name decl _ _
        have inside := (framing scope).congruence.lowerTypeWith_stay inductionHypothesis decl.file
          decl.spec.type
        exact ⟨framing.of_expanding inside.1, fun _ value _ _ => ⟨value, rfl⟩⟩
      · intro name decl declared
        have inside := (framing scope).congruence.underlyingWith_stay inductionHypothesis decl.file
          decl.spec.type
        refine ⟨?_, fun _ value _ _ => ⟨value, rfl⟩⟩
        simp only [Scope.meaning]
        cases isAlias : decl.spec.isAlias with
        | true => exact framing.of_expanding inside.1
        | false =>
            exact framing.of_finding (Scope.lookup?_self declared) isAlias
              (scope.tracked_rereading depth decl) inside.1

/-- Whatever comes of a call in a coherent state, the state behind it is steady and coherent. -/
theorem ScopeState.Coherent.call
    {scope : Scope}
    {state : ScopeState}
    (coherent : state.Coherent scope)
    (call : Scope.Call) :
    state.Steady (call.run scope state).2 ∧ (call.run scope state).2.Coherent scope :=
  Effect.of_call (framing_meaning scope _) call state coherent

/-- Calls are made in coherent states. -/
theorem Scope.Reachable.coherent
    {scope : Scope}
    {state : ScopeState}
    (reachable : scope.Reachable state) :
    state.Coherent scope := by
  induction reachable with
  | initial => exact ScopeState.initial_coherent scope
  | behind _ call inductionHypothesis => exact (inductionHypothesis.call call).2
  | warned _ warning inductionHypothesis =>
      exact ⟨inductionHypothesis.pending, inductionHypothesis.justified.of_finished_eq rfl⟩
  | expanding _ _ _ _ inductionHypothesis => exact inductionHypothesis.expand _
  | finding _ _ _ unfinished _ inductionHypothesis => exact inductionHypothesis.search unfinished

/-- From a reachable state to a reachable one. -/
def reaching
    (scope : Scope) :
    Effect where
  Leads before after := scope.Reachable before → scope.Reachable after
  refl _ reachable := reachable
  trans first second reachable := second (first reachable)
  warned _ warning reachable := reachable.warned warning

/-- Declared names are asked for by calls. -/
theorem reaching_declMeaning
    (scope : Scope) :
    (reaching scope).congruence.Agreement .stay scope scope.declMeaning scope.declMeaning := by
  apply Congruence.Agreement.inPlace
  · intro name decl declared isAlias
    refine ⟨fun state reachable => ?_, fun _ value _ _ => ⟨value, rfl⟩⟩
    have behind := reachable.behind
      (.lowerType decl.file (.name ⟨0, 0⟩ none (some ⟨name, ⟨0, 0⟩⟩) false []))
    have asked :
        scope.lowerType decl.file (.name ⟨0, 0⟩ none (some ⟨name, ⟨0, 0⟩⟩) false []) state =
          scope.declMeaning.typeOfAlias decl state := by
      simp only [Scope.lowerType, Scope.lowerTypeWith, Scope.lowerTypesWith, Scope.namedType,
        declared, isAlias, ↓reduceIte]
      rfl
    rwa [Scope.Call.run, asked] at behind
  · intro name decl declared
    refine ⟨fun state reachable => ?_, fun _ value _ _ => ⟨value, rfl⟩⟩
    have behind := reachable.behind (.underlyingOf name)
    rwa [Scope.Call.run, Scope.underlyingOf, declared] at behind

/-- The resolution of a package ends in a reachable state, also when it fails. -/
theorem Scope.reachable_symbols
    (scope : Scope) :
    scope.Reachable (scope.symbols .initial).2 :=
  Effect.of_symbols (reaching_declMeaning scope) .initial .initial

/-! ## What is finished -/

/-- A state that looks into nothing but knows what a coherent one does is ahead of the beginning. -/
theorem ScopeState.Coherent.ahead_initial
    {scope : Scope}
    {state : ScopeState}
    (coherent : state.Coherent scope) :
    { state with inProgress := [], expanding := [] }.Ahead scope .initial where
  aheadCoherent :=
    { pending := fun _ member => nomatch member
      justified := coherent.justified.of_finished_eq rfl }
  behindCoherent := initial_coherent scope
  covers _ _ finished := nomatch finished
  inProgress := List.Subset.refl _
  expanding := List.Subset.refl _

/-- What a coherent state has finished is what would be found from the very beginning. -/
theorem ScopeState.Coherent.faithful
    {scope : Scope}
    {state : ScopeState}
    (coherent : state.Coherent scope) :
    state.Faithful scope := by
  intro name found finished
  obtain ⟨decl, _, declared, notAlias, _⟩ := coherent.justified name found finished
  refine ⟨decl, declared, notAlias, ?_⟩
  intro fresh after answered
  -- The search from the beginning can be repeated where everything is known; there it only reads.
  have eager := (hastening scope).underlyingOf (.stay scope) (hastening_meaning scope _) name
  obtain ⟨_, _, _, ran, agrees, _⟩ := eager _ _ _ _ coherent.ahead_initial answered
  have recalled : scope.underlyingOf name { state with inProgress := [], expanding := [] } =
      (.ok found, { state with inProgress := [], expanding := [] }) := by
    simp only [Scope.underlyingOf, declared, Scope.declMeaning, Scope.meaning, notAlias,
      Bool.false_eq_true, ↓reduceIte, Resolve.finding, Scope.lookup?_name declared, finished]
  rw [recalled] at ran
  cases ran
  rw [Relocation.underlies_stay] at agrees
  exact agrees.symm

/-- Behind the resolution of a package nothing is looked into any more, also when it fails. -/
theorem Scope.symbols_restores
    (scope : Scope) :
    (scope.symbols .initial).2.expanding = [] ∧
      (scope.symbols .initial).2.inProgress = [] ∧
      (scope.symbols .initial).2.Faithful scope := by
  obtain ⟨steady, afterCoherent⟩ :=
    Effect.of_symbols (framing_meaning scope _) .initial (ScopeState.initial_coherent scope)
  exact ⟨steady.expanding, steady.inProgress, afterCoherent.faithful⟩

/--
Whether a call in a reachable state answers or fails: the same aliases are being expanded behind it
and the same names are being looked for as before, and what was finished is finished with the same
result.  Everything finished then is what would be found from the very beginning, if that succeeds.
-/
theorem Scope.Reachable.call_restores
    {scope : Scope}
    {state : ScopeState}
    (reachable : scope.Reachable state)
    (call : Scope.Call) :
    (call.run scope state).2.expanding = state.expanding ∧
      (call.run scope state).2.inProgress = state.inProgress ∧
      (call.run scope state).2.Covers state ∧
      (call.run scope state).2.Faithful scope := by
  obtain ⟨steady, afterCoherent⟩ := reachable.coherent.call call
  exact ⟨steady.expanding, steady.inProgress, steady.covers, afterCoherent.faithful⟩

namespace Detour

/-- The package that declares `type S A`, `type A = T` and `type T struct{ next *A }`. -/
def scope : Scope :=
  Scope.opened Sketch.package [file (definition :: others)]

/-- The declaration of the alias `A`. -/
def aliasDecl : TypeDecl :=
  ⟨"A", file (definition :: others), Sketch.declares 26 "A" true (Sketch.named 30 "T"), 26⟩

/-- What is underneath `T` has been found, and the right-hand side of `A` is being looked into. -/
def insideAlias : ScopeState :=
  { (scope.underlyingOf "T" .initial).2 with expanding := ["A"] }

/--
Inside `A` it cannot be found what is underneath `S`, which leads back to `A`.  Behind this failure
`A` is still the only alias being expanded, and what was found underneath `T` is still known.
-/
theorem call_restores_insideAlias :
    scope.Reachable insideAlias ∧
      (insideAlias.finished.lookup "T").isSome = true ∧
      (scope.underlyingOf "S" insideAlias).1.isOk = false ∧
      (scope.underlyingOf "S" insideAlias).2.expanding = ["A"] ∧
      (scope.underlyingOf "S" insideAlias).2.inProgress = [] ∧
      (scope.underlyingOf "S" insideAlias).2.Covers insideAlias ∧
      (scope.underlyingOf "S" insideAlias).2.Faithful scope := by
  have declared : scope.lookup? aliasDecl.name = some aliasDecl := rfl
  have reachable : scope.Reachable insideAlias :=
    (Scope.Reachable.initial.behind (.underlyingOf "T")).expanding declared rfl List.not_mem_nil
  refine ⟨reachable, ?_, ?_, reachable.call_restores (.underlyingOf "S")⟩
  · rfl
  · rfl

end Detour

end Implementers
