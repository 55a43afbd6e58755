import Implementers.Proofs.Order.Contribution

/-!
# A package surveyed from another place

The questions about the declarations of a package can be put to another package that differs in the
places of its declarations only.  The package resolves exactly when the other one answers all of
them and no method is declared twice; at the end both know the same.
-/

namespace Implementers

open Syntax (FuncDecl)

/-- A declaration that a package is asked about. -/
inductive Question where
  | function (file : FileScope) (func : FuncDecl)
  | type (decl : TypeDecl)

/-- The question about a declaration in another place. -/
def Question.moved
    (relocation : Relocation) :
    Question → Question
  | .function file func => .function (relocation.file file) (func.moved relocation.span)
  | .type decl => .type (relocation.decl decl)

namespace Scope

/-- What a declaration adds to the method table, once everything about it has been answered. -/
def ask
    (scope : Scope) :
    Question → Resolve MethodTable
  | .function file func => scope.entry (file, func)
  | .type decl => (scope.declSymbol? .empty decl).andThen fun _ => .answer .empty

/-- The declarations of a package in the order in which it is asked about them. -/
def questions
    (scope : Scope) :
    List Question :=
  scope.funcDecls.map (fun func => .function func.1 func.2) ++ scope.decls.map .type

/-- All questions about a package are eager. -/
theorem eager_ask
    (scope : Scope)
    (question : Question) :
    Eager scope MethodTable.Corresponds (scope.ask question) (scope.ask question) := by
  cases question with
  | function file func => exact scope.eager_addMethodDecl .empty (file, func)
  | type decl =>
      exact (hastening scope).andThen (scope.eager_declSymbol? .empty decl) fun _ _ _ =>
        (hastening scope).answer (.refl .empty)

end Scope

/-- What is computed from the answer on the other side does not disturb the lockstep. -/
theorem Lockstep.mapRight
    {relocation : Relocation}
    {agree : α → β → Prop}
    {agreeNext : α → γ → Prop}
    {left : Resolve α}
    {right : Resolve β}
    {next : β → γ}
    (lockstep : Lockstep relocation agree left right)
    (agrees : ∀ value other, agree value other → agreeNext value (next other)) :
    Lockstep relocation agreeNext left (right.andThen fun value => .answer (next value)) := by
  intro before after mirrors
  have abreast := lockstep before after mirrors
  simp only [Resolve.andThen]
  generalize left before = leftOutcome at abreast ⊢
  generalize right after = rightOutcome at abreast ⊢
  cases abreast with
  | answered agree middle => exact .answered (agrees _ _ agree) middle
  | failed errors _ _ => exact .failed errors _ _

namespace Scope

/--
Once function and type declarations have been asked about, so can be the named receivers, and
nothing new is remembered.
-/
theorem askAll_sites
    {scope : Scope}
    {table : MethodTable}
    {types : List (Option PlacedSymbol)}
    {tabled known : ScopeState}
    (ranMethods : scope.methodTable .initial = (.ok table, tabled))
    (ranTypes : Resolve.askAll (scope.declSymbol? table) scope.decls tabled = (.ok types, known)) :
    ∃ sites final,
      Resolve.askAll (scope.siteSymbol? table) table.receivers known = (.ok sites, final) ∧
        final.finished = known.finished := by
  obtain ⟨_, tabledCoherent⟩ :=
    (scope.eager_addMethodDecls .empty scope.funcDecls).steady (ScopeState.initial_coherent scope)
      ranMethods
  obtain ⟨steady, knownCoherent, asked⟩ :=
    asked_of_askAll (scope.eager_declSymbol? table) _ tabledCoherent ranTypes
  have receives : scope.Receives tabled table :=
    receives_addMethodDecls scope.funcDecls (ScopeState.initial_coherent scope)
      (fun _ member => by simp [MethodTable.empty] at member) ranMethods
  refine askAll_of_settles (scope.eager_siteSymbol? table) table.receivers knownCoherent.ahead ?_
  intro site member
  obtain ⟨⟨decl, declared, kept⟩, underlying, found, notInterface⟩ :=
    (receives site member).later steady.covers
  have sameName := lookup?_name declared
  obtain ⟨_, _, askedType⟩ := exists_related_right asked (List.mem_of_find?_eq_some declared)
  have neverInterface : ∀ interface,
      known.finished.lookup decl.name ≠ some (.interface interface) := by
    rintro interface isInterface
    rw [sameName, found] at isInterface
    cases isInterface
    cases notInterface
  obtain ⟨methods, after, ran, unchanged⟩ :=
    concreteMethods_of_asked askedType (lookup?_self declared) kept neverInterface
      knownCoherent.ahead site.pointer
  rw [sameName] at ran
  have answered : ∃ symbol, scope.siteSymbol? table site known = (.ok symbol, after) := by
    simp only [siteSymbol?, declared, bind, Resolve.andThen, ran]
    exact ⟨_, rfl⟩
  obtain ⟨symbol, answered⟩ := answered
  exact ⟨symbol, (scope.eager_siteSymbol? table site).settles_of_unchanged knownCoherent answered
    unchanged⟩

/-- The named receivers of a package add nothing to what is known. -/
theorem Resolution.finished_final
    {scope : Scope}
    (resolution : scope.Resolution) :
    resolution.final.finished = resolution.known.finished := by
  obtain ⟨_, final, ranSites, unchanged⟩ :=
    askAll_sites resolution.ranMethods resolution.ranTypes
  rw [resolution.ranSites] at ranSites
  cases ranSites
  exact unchanged

end Scope

namespace MethodTable

/-- Tables that may differ in the places of receivers and in their order. -/
structure Alike
    (left right : MethodTable) :
    Prop where
  methods : left.methods.Perm right.methods
  receivers : Paired ReceiverSite.Corresponds left.receivers right.receivers

theorem Corresponds.alike
    {left right : MethodTable}
    (corresponds : left.Corresponds right) :
    left.Alike right :=
  ⟨.of_eq corresponds.methods, .of_forall₂ corresponds.receivers⟩

theorem Alike.symm
    {left right : MethodTable}
    (alike : left.Alike right) :
    right.Alike left :=
  ⟨alike.methods.symm, alike.receivers.symm.imp fun _ _ same => ⟨same.1.symm, same.2.symm⟩⟩

theorem Alike.trans
    {first second third : MethodTable}
    (alike : first.Alike second)
    (alikeNext : second.Alike third) :
    first.Alike third :=
  ⟨alike.methods.trans alikeNext.methods,
    alike.receivers.trans alikeNext.receivers fun _ _ _ same sameNext =>
      ⟨same.1.trans sameNext.1, same.2.trans sameNext.2⟩⟩

/-- No method is declared twice in any order. -/
theorem Alike.distinct
    {left right : MethodTable}
    (alike : left.Alike right)
    (distinct : left.Distinct) :
    right.Distinct :=
  (alike.methods.pairwise_iff DeclaredMethod.Apart.symm).mp distinct

/-- Tables joined from like parts in another order are alike. -/
theorem alike_joinAll
    {left right : List MethodTable}
    (paired : Paired Alike left right) :
    (joinAll left).Alike (joinAll right) :=
  ⟨(paired.flatMap fun _ _ alike => .of_perm alike.methods).perm,
    paired.flatMap fun _ _ alike => alike.receivers⟩

/-- Tables correspond when what they are joined from does. -/
theorem corresponds_joinAll
    {left right : List MethodTable}
    (pairs : List.Forall₂ Corresponds left right) :
    (joinAll left).Corresponds (joinAll right) := by
  induction pairs with
  | nil => exact ⟨rfl, .nil⟩
  | cons head _ inductionHypothesis =>
      refine ⟨?_, ?_⟩
      · simp only [joinAll, List.flatMap_cons, head.methods]
        exact congrArg _ inductionHypothesis.methods
      · exact List.rel_append head.receivers inductionHypothesis.receivers

theorem joinAll_append
    (earlier later : List MethodTable) :
    joinAll (earlier ++ later) = (joinAll earlier).join (joinAll later) := by
  simp [joinAll, join]

theorem joinAll_of_empty
    {tables : List MethodTable}
    (empty : ∀ table ∈ tables, table = .empty) :
    joinAll tables = .empty := by
  simp only [joinAll, MethodTable.empty, mk.injEq, List.flatMap_eq_nil_iff]
  exact ⟨fun table member => by rw [empty table member]; rfl,
    fun table member => by rw [empty table member]; rfl⟩

end MethodTable

section Survey

variable
  {relocation : Relocation}
  {before after : Scope}
  (moves : relocation.Moves before after)

include moves

/-- What function declarations add is asked for in lockstep. -/
theorem lockstep_funcs
    (funcs : List (FileScope × FuncDecl)) :
    Lockstep relocation (List.Forall₂ MethodTable.Corresponds)
      (Resolve.askAll before.entry funcs)
      (Resolve.askAll after.ask
        (funcs.map fun func => (Question.function func.1 func.2).moved relocation)) :=
  (marching relocation).askAll
    (fun func => (marching relocation).addMethodDecl moves (marching_declMeaning moves) func.1
      (MethodTable.Corresponds.refl .empty) func.2) funcs

/-- The symbols of type declarations are asked for in lockstep, whatever the method table. -/
theorem lockstep_types
    (table : MethodTable)
    (decls : List TypeDecl) :
    Lockstep relocation (List.Forall₂ fun _ added => added = .empty)
      (Resolve.askAll (before.declSymbol? table) decls)
      (Resolve.askAll after.ask
        (decls.map fun decl => (Question.type decl).moved relocation)) := by
  refine (marching relocation).askAll (fun decl => ?_) decls
  have lockstep : Lockstep relocation PlacedSymbol.Corresponds (before.declSymbol? table decl)
      (after.declSymbol? .empty (relocation.decl decl)) :=
    (marching relocation).declSymbol? moves (marching_declMeaning moves) table .empty decl
  have quiet : ∀ (symbol other : Option PlacedSymbol), PlacedSymbol.Corresponds symbol other →
      MethodTable.empty = .empty := fun _ _ _ => rfl
  exact lockstep.mapRight quiet

omit moves in
/-- The questions about a package in another place: first its functions, then its types. -/
theorem moved_questions
    (scope : Scope) :
    scope.questions.map (Question.moved relocation) =
      (scope.funcDecls.map fun func => (Question.function func.1 func.2).moved relocation) ++
        scope.decls.map fun decl => (Question.type decl).moved relocation := by
  simp [Scope.questions, Function.comp_def]

/-- Where a package resolves, the other one answers the questions about it. -/
theorem Scope.Resolution.survey
    (resolution : before.Resolution) :
    ∃ entries surveyed,
      Resolve.askAll after.ask (before.questions.map (Question.moved relocation)) .initial =
          (.ok entries, surveyed) ∧
        resolution.known.Mirrors relocation.underlying surveyed ∧
        resolution.table.Corresponds (.joinAll entries) ∧
        (MethodTable.joinAll entries).Distinct := by
  obtain ⟨own, ranOwn, joined, distinct⟩ :=
    (Scope.addMethodDecls_ok _ MethodTable.distinct_empty).mp resolution.ranMethods
  have abreast := lockstep_funcs moves before.funcDecls .initial .initial
    (.initial _)
  rw [ranOwn] at abreast
  generalize ranFuncs : Resolve.askAll after.ask _ ScopeState.initial = outcome at abreast
  cases abreast with
  | @answered _ funcEntries _ tabled corresponds mirrors =>
      have abreastTypes := lockstep_types moves resolution.table before.decls _ _ mirrors
      rw [resolution.ranTypes] at abreastTypes
      generalize ranTypes : Resolve.askAll after.ask _ tabled = outcome at abreastTypes
      cases abreastTypes with
      | @answered _ typeEntries _ surveyed nothing mirrorsKnown =>
          have nothingAdded : MethodTable.joinAll typeEntries = .empty := by
            apply MethodTable.joinAll_of_empty
            intro table member
            obtain ⟨_, _, same⟩ := exists_related_left nothing member
            exact same
          have onlyFuncs : MethodTable.joinAll (funcEntries ++ typeEntries) =
              .joinAll funcEntries := by
            rw [MethodTable.joinAll_append, nothingAdded, MethodTable.join_empty]
          have correspondsJoined : resolution.table.Corresponds (.joinAll funcEntries) := by
            rw [joined, MethodTable.empty_join]
            exact MethodTable.corresponds_joinAll corresponds
          refine ⟨funcEntries ++ typeEntries, surveyed, ?_, mirrorsKnown, ?_, ?_⟩
          · rw [moved_questions]
            exact Resolve.askAll_append_ok.mpr
              ⟨funcEntries, typeEntries, tabled, ranFuncs, ranTypes, rfl⟩
          · rw [onlyFuncs]
            exact correspondsJoined
          · rw [onlyFuncs, MethodTable.Distinct, ← correspondsJoined.methods]
            exact distinct

/-- A package resolves when the other one answers the questions about it. -/
theorem Scope.exists_resolution
    {entries : List MethodTable}
    {surveyed : ScopeState}
    (answered :
      Resolve.askAll after.ask (before.questions.map (Question.moved relocation)) .initial =
        (.ok entries, surveyed))
    (distinct : (MethodTable.joinAll entries).Distinct) :
    Nonempty before.Resolution := by
  rw [moved_questions] at answered
  obtain ⟨funcEntries, typeEntries, tabled', ranFuncs, ranTypes, rfl⟩ :=
    Resolve.askAll_append_ok.mp answered
  have abreast := lockstep_funcs moves before.funcDecls .initial .initial
    (.initial _)
  rw [ranFuncs] at abreast
  generalize ranOwn : Resolve.askAll before.entry before.funcDecls .initial = outcome at abreast
  cases abreast with
  | @answered own _ tabled _ corresponds mirrors =>
      have ownDistinct : (MethodTable.joinAll own).Distinct := by
        rw [MethodTable.joinAll_append, MethodTable.distinct_join_iff] at distinct
        rw [MethodTable.Distinct, (MethodTable.corresponds_joinAll corresponds).methods]
        exact distinct.1
      have ranMethods : before.methodTable .initial = (.ok (.joinAll own), tabled) :=
        (Scope.addMethodDecls_ok _ MethodTable.distinct_empty).mpr
          ⟨own, ranOwn, (MethodTable.empty_join _).symm, ownDistinct⟩
      have abreastTypes := lockstep_types moves (.joinAll own) before.decls _ _ mirrors
      rw [ranTypes] at abreastTypes
      generalize askedTypes :
        Resolve.askAll (before.declSymbol? (.joinAll own)) before.decls tabled = outcome
          at abreastTypes
      cases abreastTypes with
      | @answered types _ known _ _ _ =>
          obtain ⟨sites, final, ranSites, _⟩ :=
            Scope.askAll_sites ranMethods askedTypes
          exact ⟨⟨.joinAll own, types, sites, tabled, known, final, ranMethods, askedTypes,
            ranSites⟩⟩

end Survey

end Implementers
