import Implementers.Proofs.Interfaces.Package
import Implementers.Proofs.Promotion.Loops
import Implementers.Proofs.Scope.Depth
import Mathlib.Logic.Relation

/-!
# Resolution comes to an end, and never over a cycle

The resolution of a package ends, whatever its declarations say.  A declaration follows another one
when its right-hand side names it, or when it is an interface that embeds it.  Whatever is found
underneath a name in the course of a resolution has no way that goes on for ever behind it, so a
package in which a declared type leads to a cycle does not resolve.
-/

namespace Implementers

open Relation (ReflTransGen TransGen)
open Syntax (Ident TypeExpr Elem)

/-! ## Ways from declaration to declaration -/

namespace Scope

/--
A type expression that is the name of a declaration, without a qualifier and without type arguments,
or an interface with such an element; parentheses do not matter.
-/
inductive Mentions
    (scope : Scope) :
    TypeExpr → TypeDecl → Prop where
  | name
      {span : Syntax.Span}
      {ident : Ident}
      {args : List TypeExpr}
      {decl : TypeDecl}
      (found : scope.lookup? ident.text = some decl) :
      Mentions scope (.name span none (some ident) false args) decl
  | paren
      {span : Syntax.Span}
      {inner : TypeExpr}
      {decl : TypeDecl}
      (mentions : Mentions scope inner decl) :
      Mentions scope (.paren span inner) decl
  | element
      {span elemSpan : Syntax.Span}
      {elems : List Elem}
      {type : TypeExpr}
      {decl : TypeDecl}
      (member : .embedded elemSpan type ∈ elems)
      (mentions : Mentions scope type decl) :
      Mentions scope (.interface span elems) decl

/-- The right-hand side of a declaration leads to another declaration. -/
def Follows
    (scope : Scope)
    (decl next : TypeDecl) :
    Prop :=
  scope.Mentions decl.spec.type next

/-- No way from a declaration goes on for ever. -/
def Bounded
    (scope : Scope)
    (decl : TypeDecl) :
    Prop :=
  Acc (fun next decl => scope.Follows decl next) decl

/-- Where no way goes on for ever, every declaration on the way is like that. -/
theorem Bounded.follow
    {scope : Scope}
    {decl later : TypeDecl}
    (bounded : scope.Bounded decl)
    (leads : ReflTransGen scope.Follows decl later) :
    scope.Bounded later := by
  induction leads with
  | refl => exact bounded
  | tail _ follows inductionHypothesis => exact inductionHypothesis.inv follows

/-- A way that comes back to its beginning goes on for ever. -/
theorem Bounded.not_cyclic
    {scope : Scope}
    {decl : TypeDecl}
    (bounded : scope.Bounded decl) :
    ¬TransGen scope.Follows decl decl := by
  induction bounded with
  | intro decl _ inductionHypothesis =>
      intro cycle
      obtain ⟨next, follows, back⟩ := TransGen.head'_iff.mp cycle
      exact inductionHypothesis next follows (TransGen.tail' back follows)

end Scope

/-! ## What is remembered leads to no cycle -/

/-- No way from what a state has finished goes on for ever. -/
def ScopeState.Bounded
    (scope : Scope)
    (state : ScopeState) :
    Prop :=
  ∀ name found decl, state.finished.lookup name = some found → scope.lookup? name = some decl →
    scope.Bounded decl

/-- A state that has finished the same as another one is like it. -/
theorem ScopeState.Bounded.of_finished_eq
    {scope : Scope}
    {before after : ScopeState}
    (bounded : before.Bounded scope)
    (same : after.finished = before.finished) :
    after.Bounded scope :=
  fun name found decl finished => bounded name found decl (same ▸ finished)

/-- A resolution that keeps states bounded, beside one that may agree with its answers. -/
def KeepsBounded
    (scope : Scope)
    (agree : α → β → Prop)
    (resolution : Resolve α)
    (_ : Resolve β) :
    Prop :=
  ∀ state value after, state.Bounded scope → resolution state = (.ok value, after) →
    after.Bounded scope ∧ ∃ other, agree value other

namespace KeepsBounded

variable {scope : Scope}

theorem answer
    {agree : α → β → Prop}
    {left : α}
    {right : β}
    (agrees : agree left right) :
    KeepsBounded scope agree (.answer left) (.answer right) := by
  intro state value after bounded answered
  cases answered
  exact ⟨bounded, right, agrees⟩

theorem andThen
    {agree : α → β → Prop}
    {agreeNext : γ → δ → Prop}
    {left : Resolve α}
    {right : Resolve β}
    {leftNext : α → Resolve γ}
    {rightNext : β → Resolve δ}
    (first : KeepsBounded scope agree left right)
    (next : ∀ value other, agree value other →
      KeepsBounded scope agreeNext (leftNext value) (rightNext other)) :
    KeepsBounded scope agreeNext (left.andThen leftNext) (right.andThen rightNext) := by
  intro state result after bounded answered
  obtain ⟨value, middle, ran, answeredNext⟩ := Resolve.andThen_ok answered
  obtain ⟨boundedMiddle, other, agrees⟩ := first state value middle bounded ran
  exact next value other agrees middle result after boundedMiddle answeredNext

end KeepsBounded

/-- Resolutions keep states bounded. -/
def bounding
    (scope : Scope) :
    Congruence where
  Related := KeepsBounded scope
  answer := KeepsBounded.answer
  fail _ _ := fun _ _ _ _ answered => nomatch answered
  warn _ _ := by
    intro state value after bounded answered
    cases answered
    exact ⟨bounded.of_finished_eq rfl, (), rfl⟩
  andThen := KeepsBounded.andThen

/-- Meanings of declared names that keep states bounded and give bounded declarations. -/
structure Meaning.Bounds
    (scope : Scope)
    (meaning : Meaning) :
    Prop where
  agreement : (bounding scope).Agreement .stay scope meaning meaning
  bounded :
    ∀ name decl, scope.lookup? name = some decl →
      ∀ state value after, state.Bounded scope →
        meaning.underlying decl state = (.ok value, after) → scope.Bounded decl

namespace Meaning.Bounds

variable
  {scope : Scope}
  {meaning : Meaning}
  (bounds : meaning.Bounds scope)

include bounds

omit bounds in
/-- What is known already keeps states bounded. -/
theorem keeps_known
    (known : Except UnitError α) :
    KeepsBounded scope Eq (.ofExcept known) (.ofExcept known) :=
  (bounding scope).ofExcept rfl

/-- Behind a method the elements are gone through in a state that is bounded. -/
theorem behind_method
    {file : FileScope}
    {explicit : List String}
    {own methods : InterfaceMethods}
    {span : Syntax.Span}
    {name : Option Syntax.Ident}
    {params : Syntax.ParamList}
    {result : Syntax.Result}
    {rest : List Elem}
    {state after : ScopeState}
    (bounded : state.Bounded scope)
    (answered :
      scope.interfaceMethodsWith meaning file explicit own (.method span name params result :: rest)
        state = (.ok methods, after)) :
    ∃ explicit own middle, middle.Bounded scope ∧
      scope.interfaceMethodsWith meaning file explicit own rest middle = (.ok methods, after) := by
  cases name with
  | none => cases answered
  | some name =>
      simp only [Scope.interfaceMethodsWith] at answered
      split at answered
      · exact ⟨_, _, _, bounded, answered⟩
      · split at answered
        · cases answered
        · obtain ⟨_, first, ranParams, answered⟩ := Resolve.andThen_ok answered
          obtain ⟨_, second, ranResult, answered⟩ := Resolve.andThen_ok answered
          obtain ⟨_, third, added, answered⟩ := Resolve.andThen_ok answered
          have boundedFirst :=
            ((bounding scope).lowerParamListWith_stay bounds.agreement file params
              _ _ _ bounded ranParams).1
          have boundedSecond :=
            ((bounding scope).lowerResultWith_stay bounds.agreement file result
              _ _ _ boundedFirst ranResult).1
          exact ⟨_, _, third, (keeps_known _ _ _ _ boundedSecond added).1, answered⟩

/-- An embedded element and the elements behind it are gone through in states that are bounded. -/
theorem behind_embedded
    {file : FileScope}
    {explicit : List String}
    {own methods : InterfaceMethods}
    {span : Syntax.Span}
    {type : TypeExpr}
    {rest : List Elem}
    {state after : ScopeState}
    (bounded : state.Bounded scope)
    (answered :
      scope.interfaceMethodsWith meaning file explicit own (.embedded span type :: rest) state =
        (.ok methods, after)) :
    ∃ inner joined first middle, middle.Bounded scope ∧
      scope.embeddedMethodsWith meaning file (file.position span.start) type state =
        (.ok inner, first) ∧
      scope.interfaceMethodsWith meaning file explicit joined rest middle =
        (.ok methods, after) := by
  have parts
      (answered :
        ((scope.embeddedMethodsWith meaning file (file.position span.start) type).andThen
          fun inner =>
            (Resolve.ofExcept (Scope.embed (file.position span.start) own inner)).andThen
              fun joined => scope.interfaceMethodsWith meaning file explicit joined rest) state =
          (.ok methods, after)) :
      ∃ inner joined first middle, middle.Bounded scope ∧
        scope.embeddedMethodsWith meaning file (file.position span.start) type state =
          (.ok inner, first) ∧
        scope.interfaceMethodsWith meaning file explicit joined rest middle =
          (.ok methods, after) := by
    obtain ⟨inner, first, ran, answered⟩ := Resolve.andThen_ok answered
    obtain ⟨joined, middle, known, answered⟩ := Resolve.andThen_ok answered
    have boundedFirst :=
      ((bounding scope).embeddedMethodsWith_stay bounds.agreement file _ _
        state inner first bounded ran).1
    exact ⟨inner, joined, first, middle, (keeps_known _ _ _ _ boundedFirst known).1, ran, answered⟩
  cases type with
  | missing _ => cases answered
  | _ => exact parts answered

/-- Each embedded element of an interface is gone through in a state that is bounded. -/
theorem elements
    {file : FileScope}
    {elems : List Elem} :
    ∀ {explicit : List String} {own methods : InterfaceMethods} {state after : ScopeState},
      state.Bounded scope →
      scope.interfaceMethodsWith meaning file explicit own elems state = (.ok methods, after) →
      ∀ span type, .embedded span type ∈ elems →
        ∃ position state inner after, state.Bounded scope ∧
          scope.embeddedMethodsWith meaning file position type state = (.ok inner, after) := by
  induction elems with
  | nil => exact fun _ _ _ _ none => absurd none List.not_mem_nil
  | cons elem rest inductionHypothesis =>
      intro explicit own methods state after bounded answered span type member
      cases elem with
      | method _ _ _ _ =>
          obtain ⟨_, _, _, boundedRest, behind⟩ := bounds.behind_method bounded answered
          exact inductionHypothesis boundedRest behind span type (by simpa using member)
      | embedded _ _ =>
          obtain ⟨inner, _, first, _, boundedRest, ran, behind⟩ :=
            bounds.behind_embedded bounded answered
          rcases List.mem_cons.mp member with isFirst | inRest
          · cases isFirst
            exact ⟨_, state, inner, first, bounded, ran⟩
          · exact inductionHypothesis boundedRest behind span type inRest
      | typeSet _ =>
          exact inductionHypothesis bounded answered span type (by simpa using member)

/-- Behind an embedded element that answers no way goes on for ever. -/
theorem of_embedded
    {file : FileScope}
    {type : TypeExpr}
    {next : TypeDecl}
    (mentions : scope.Mentions type next) :
    ∀ {position : Position} {state after : ScopeState} {inner : InterfaceMethods},
      state.Bounded scope →
      scope.embeddedMethodsWith meaning file position type state = (.ok inner, after) →
      scope.Bounded next := by
  induction mentions with
  | name found =>
      intro position state after inner bounded answered
      obtain ⟨underlying, middle, ran, _⟩ := Resolve.andThen_ok answered
      simp only [Scope.plainNameUnderlying, found] at ran
      exact bounds.bounded _ _ found state underlying middle bounded ran
  | paren _ inductionHypothesis => exact inductionHypothesis
  | element member _ inductionHypothesis =>
      intro position state after inner bounded answered
      obtain ⟨_, _, _, _, boundedElement, ran⟩ := bounds.elements bounded answered _ _ member
      exact inductionHypothesis boundedElement ran

/-- Behind a type expression with something found underneath it no way goes on for ever. -/
theorem of_underlying
    {file : FileScope}
    {type : TypeExpr}
    {next : TypeDecl}
    (mentions : scope.Mentions type next) :
    ∀ {state after : ScopeState} {value : Underlying},
      state.Bounded scope →
      scope.underlyingWith meaning file type state = (.ok value, after) →
      scope.Bounded next := by
  induction mentions with
  | name found =>
      intro state after value bounded answered
      simp only [Scope.underlyingWith, Option.isNone_none, Bool.and_false, Bool.false_eq_true,
        ↓reduceIte, Scope.plainNameUnderlying, found] at answered
      exact bounds.bounded _ _ found state value after bounded answered
  | paren _ inductionHypothesis => exact inductionHypothesis
  | element member mentions _ =>
      intro state after value bounded answered
      obtain ⟨_, _, ran, _⟩ := Resolve.andThen_ok answered
      obtain ⟨_, _, _, _, boundedElement, ran⟩ := bounds.elements bounded ran _ _ member
      exact bounds.of_embedded mentions boundedElement ran

/-- A right-hand side that answers makes its declaration bounded. -/
theorem of_rightHandSide
    {decl : TypeDecl}
    {state after : ScopeState}
    {value : Underlying}
    (bounded : state.Bounded scope)
    (answered :
      scope.underlyingWith meaning decl.file decl.spec.type state = (.ok value, after)) :
    after.Bounded scope ∧ scope.Bounded decl := by
  constructor
  · exact ((bounding scope).underlyingWith_stay bounds.agreement decl.file decl.spec.type
      state value after bounded answered).1
  · exact .intro decl fun next follows => bounds.of_underlying follows bounded answered

/-- An alias whose right-hand side answers is bounded. -/
theorem of_expanding
    {decl : TypeDecl}
    {state after : ScopeState}
    {value : Underlying}
    (bounded : state.Bounded scope)
    (answered :
      Resolve.expanding decl (scope.underlyingWith meaning decl.file decl.spec.type) state =
        (.ok value, after)) :
    after.Bounded scope ∧ scope.Bounded decl := by
  obtain ⟨-, middle, ran, rfl⟩ := Resolve.expanding_ok answered
  obtain ⟨boundedMiddle, boundedDecl⟩ :=
    bounds.of_rightHandSide (by exact bounded.of_finished_eq rfl) ran
  exact ⟨boundedMiddle.of_finished_eq rfl, boundedDecl⟩

/-- A declared type with something found underneath it is bounded. -/
theorem of_finding
    {name : String}
    {decl : TypeDecl}
    {state after : ScopeState}
    {value : Underlying}
    (found : scope.lookup? name = some decl)
    (bounded : state.Bounded scope)
    (answered :
      Resolve.finding decl (scope.underlyingWith meaning decl.file decl.spec.type) state =
        (.ok value, after)) :
    after.Bounded scope ∧ scope.Bounded decl := by
  have ownName := Scope.lookup?_name found
  rcases Resolve.finding_ok answered with ⟨finished, rfl⟩ | ⟨_, _, middle, ran, rfl⟩
  · exact ⟨bounded, bounded decl.name value decl finished (ownName ▸ found)⟩
  · obtain ⟨boundedMiddle, boundedDecl⟩ :=
      bounds.of_rightHandSide (by exact bounded.of_finished_eq rfl) ran
    refine ⟨fun other found' otherDecl finished declared => ?_, boundedDecl⟩
    rw [ScopeState.lookup_finish] at finished
    split at finished
    · next same =>
        rw [same, ownName, found] at declared
        exact Option.some.inj declared ▸ boundedDecl
    · exact boundedMiddle other found' otherDecl finished declared

end Meaning.Bounds

/-- What declared names mean keeps states bounded and gives bounded declarations. -/
theorem bounds_meaning
    (scope : Scope)
    (depth : Nat) :
    (scope.meaning depth).Bounds scope := by
  induction depth with
  | zero =>
      have fails {α : Type} {agree : α → α → Prop} (error : UnitError) :
          KeepsBounded scope agree (.fail error : Resolve α) (.fail error) :=
        (bounding scope).fail error error
      exact ⟨.inPlace (fun _ _ _ _ => fails _) fun _ _ _ => fails _,
        fun _ _ _ _ _ _ _ answered => nomatch answered⟩
  | succ depth bounds =>
      have underlying (name : String) (decl : TypeDecl) (found : scope.lookup? name = some decl)
          (state : ScopeState) (value : Underlying) (after : ScopeState)
          (bounded : state.Bounded scope)
          (answered : (scope.meaning (depth + 1)).underlying decl state = (.ok value, after)) :
          after.Bounded scope ∧ scope.Bounded decl := by
        simp only [Scope.meaning] at answered
        split at answered
        · exact bounds.of_expanding bounded answered
        · exact bounds.of_finding found bounded answered
      refine ⟨.inPlace ?_ ?_, ?_⟩
      · intro name decl _ _ state value after bounded answered
        obtain ⟨-, middle, ran, rfl⟩ := Resolve.expanding_ok answered
        have keeps :=
          (bounding scope).lowerTypeWith_stay bounds.agreement decl.file decl.spec.type
            _ value middle (by exact bounded.of_finished_eq rfl) ran
        exact ⟨keeps.1.of_finished_eq rfl, value, rfl⟩
      · intro name decl found state value after bounded answered
        exact ⟨(underlying name decl found state value after bounded answered).1, value, rfl⟩
      · intro name decl found state value after bounded answered
        exact (underlying name decl found state value after bounded answered).2

/-- Whatever is remembered at the end of a resolution leads to no cycle. -/
theorem Scope.Resolution.bounded
    {scope : Scope}
    (resolution : Resolution scope) :
    resolution.final.Bounded scope := by
  have agreement := (bounds_meaning scope (scope.decls.length + 1)).agreement
  have declaring := (bounding scope).addMethodDecls_stay agreement .empty scope.funcDecls
  have naming :=
    (bounding scope).askAll
      ((bounding scope).declSymbol?_stay agreement resolution.table) scope.decls
  have siting :=
    (bounding scope).askAll
      ((bounding scope).siteSymbol?_stay agreement resolution.table) resolution.table.receivers
  have tabled := declaring .initial resolution.table resolution.tabled
    (fun _ _ _ finished => nomatch finished) resolution.ranMethods
  have known := naming resolution.tabled resolution.types resolution.known tabled.1
    resolution.ranTypes
  exact (siting resolution.known resolution.sites resolution.final known.1
    resolution.ranSites).1

/-- In a package that resolves, no way from a declared type goes on for ever. -/
theorem Scope.Resolution.bounded_of_mem
    {scope : Scope}
    (resolution : Resolution scope)
    (distinct : (scope.decls.map TypeDecl.name).Nodup)
    {decl : TypeDecl}
    (member : decl ∈ scope.decls)
    (kept : (decl.spec.isAlias || decl.spec.generic) = false) :
    scope.Bounded decl := by
  obtain ⟨underlying, finished, _⟩ := resolution.lookup_final distinct member kept
  exact resolution.bounded decl.name underlying decl finished
    (Scope.lookup?_of_mem distinct member)

/-! ## Termination -/

/--
The recursions and loops of a resolution come to an end by themselves.  What stands below a depth of
more declarations than the package has is never asked, and the loops need no bound.
-/
structure Scope.Halts
    (scope : Scope) :
    Prop where
  lowering :
    ∀ (bottom : Meaning) (depth : Nat), scope.decls.length < depth → ∀ file type,
      scope.lowerTypeWith (scope.meaningOver bottom depth) file type = scope.lowerType file type
  interfaces :
    ∀ (bottom : Meaning) (depth : Nat), scope.decls.length < depth → ∀ file elems,
      scope.interfaceMethodsWith (scope.meaningOver bottom depth) file [] {} elems =
        scope.interfaceMethods file elems
  underlying :
    ∀ (bottom : Meaning) (depth : Nat), scope.decls.length < depth → ∀ name decl,
      scope.lookup? name = some decl →
        (scope.meaningOver bottom depth).underlying decl = scope.underlyingOf name
  receivers :
    ∀ name, ComesTo scope.receiverTurn (0, name) (scope.throughAliases? Scope.aliasLimit name)
  embedded :
    ∀ name, ComesTo scope.embeddedTurn ([], name)
      (scope.embeddedThroughAliases? (scope.decls.length + 2) [] name)
  promotion :
    ∀ table base pointer memory,
      ComesTo (scope.promotionTurn table)
        ({ seen := [], settled := [], methods := .empty, ways := [(.declared base, pointer)] },
          memory)
        (scope.concreteMethods table base pointer memory)

/-- The resolution of every package comes to an end. -/
theorem Scope.halts
    (scope : Scope) :
    scope.Halts where
  lowering bottom _ deep file type :=
    eq_of_alike ((scope.alike_declMeaning bottom deep).lowerTypeWith file type)
  interfaces bottom _ deep file elems :=
    eq_of_alike ((scope.alike_declMeaning bottom deep).interfaceMethodsWith file [] {} elems)
  underlying bottom _ deep name decl found := by
    rw [eq_of_alike ((scope.alike_declMeaning bottom deep).underlying name decl found),
      underlyingOf, found]
  receivers name := scope.comesTo_throughAliases? aliasLimit name (Nat.zero_add _) (by decide)
  embedded name :=
    scope.comesTo_embeddedThroughAliases? _ name .nil (List.nil_subset _) (by simp)
  promotion _ base pointer memory := comesTo_concreteMethods base pointer memory

/--
The resolution of a package comes to an end, and no cycle slips through: when a declared type, which
is neither an alias nor generic, leads to a declaration that leads back to itself, the package does
not resolve.
-/
theorem resolvePackage_halts
    (package : PackageId)
    (files : List FileScope) :
    (∀ scope : Scope, scope.Halts) ∧
      ∀ scope, Scope.ofFiles package files = .ok scope →
        ∀ start ∈ scope.decls, (start.spec.isAlias || start.spec.generic) = false →
          ∀ decl, ReflTransGen scope.Follows start decl → TransGen scope.Follows decl decl →
            ∃ error, resolvePackage package files = .error error := by
  refine ⟨Scope.halts, ?_⟩
  intro scope opened start member kept decl leads cycle
  cases resolved : resolvePackage package files with
  | error error => exact ⟨error, rfl⟩
  | ok answer =>
      obtain ⟨other, resolution, otherOpened, _⟩ := resolvePackage_ok resolved
      obtain rfl : scope = other := Except.ok.inj (opened.symm.trans otherOpened)
      have bounded :=
        resolution.bounded_of_mem (Scope.nodup_names_of_ofFiles opened) member kept
      exact absurd cycle (bounded.follow leads).not_cyclic

/-! ## A ring of interfaces -/

namespace Ring

open Sketch (package)

/-- An interface with one embedded element. -/
def interfaceType
    (offset : Nat)
    (name : String)
    (element : TypeExpr) :
    Syntax.TypeSpec :=
  Sketch.declares offset name false (.interface ⟨offset, offset⟩ [.embedded element.span element])

/-- The file that declares `type I interface{ A }`, `type A = J` and `type J interface{ (I) }`. -/
def file : FileScope :=
  Sketch.file
    [ interfaceType 16 "I" (Sketch.named 29 "A"),
      Sketch.declares 38 "A" true (Sketch.named 42 "J"),
      interfaceType 50 "J" (.paren ⟨63, 66⟩ (Sketch.named 64 "I"))]
    []

/-- The declarations of the package. -/
def scope : Scope :=
  ⟨package, [file], Scope.declsOf file⟩

/-- A declaration of the package by its place in the file. -/
def decl
    (index : Fin 3) :
    TypeDecl :=
  scope.decls.get index

/-- An interface leads through an alias and an interface back to itself. -/
theorem cyclic :
    TransGen scope.Follows (decl 0) (decl 0) := by
  have first : scope.Follows (decl 0) (decl 1) :=
    .element (List.mem_singleton_self _) (.name rfl)
  have second : scope.Follows (decl 1) (decl 2) := .name rfl
  have third : scope.Follows (decl 2) (decl 0) :=
    .element (List.mem_singleton_self _) (.paren (.name rfl))
  exact .tail (.tail (.single first) second) third

/-- The ring does not resolve. -/
theorem resolvePackage_halts_ring :
    Scope.ofFiles package [file] = .ok scope ∧
      ∃ error, resolvePackage package [file] = .error error :=
  ⟨rfl, (resolvePackage_halts package [file]).2 scope rfl (decl 0) (List.get_mem _ _) rfl
    (decl 0) .refl cyclic⟩

end Ring

end Implementers
