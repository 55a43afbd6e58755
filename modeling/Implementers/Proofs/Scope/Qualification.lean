import Implementers.Proofs.Scope.Recollection
import Implementers.Proofs.Scope.Relocation
import Implementers.Proofs.TypeIdentity
import Implementers.Ty.Localize

namespace Implementers

/-!
# Type expressions with a qualifier

A type expression of one package can be written in another one by putting a qualifier in front of
every name that the first package declares.  Both expressions lead to the same type once imported
owners are replaced, as long as no alias occurs: inside its package an alias is transparent, while
outside it is a name like any other, of a type that does not exist.
-/

namespace Scope

/-- Whether a package declares a type of a name. -/
def declaresType
    (scope : Scope)
    (name : String) :
    Bool :=
  (scope.lookup? name).isSome

/-- Whether none of the names that a package declares is an alias. -/
def NoAlias
    (scope : Scope)
    (names : List String) :
    Prop :=
  ∀ name ∈ names, ∀ decl, scope.lookup? name = some decl → decl.spec.isAlias = false

instance
    (scope : Scope)
    (names : List String) :
    Decidable (scope.NoAlias names) :=
  decidable_of_iff
    (∀ name ∈ names, (scope.lookup? name).all (fun decl => !decl.spec.isAlias) = true)
    (by simp [NoAlias, Option.all_eq_true])

theorem noAlias_nil
    {scope : Scope} :
    scope.NoAlias [] := by
  simp [NoAlias]

theorem noAlias_cons
    {scope : Scope}
    {name : String}
    {names : List String} :
    scope.NoAlias (name :: names) ↔
      (∀ decl, scope.lookup? name = some decl → decl.spec.isAlias = false) ∧
        scope.NoAlias names := by
  simp [NoAlias]

theorem noAlias_append
    {scope : Scope}
    {first second : List String} :
    scope.NoAlias (first ++ second) ↔ scope.NoAlias first ∧ scope.NoAlias second := by
  simp [NoAlias, or_imp, forall_and]

end Scope

namespace Syntax

mutual

/--
A type expression with a qualifier in front of certain names.  The names of parameters are none of
them; struct and interface types stay as they are.
-/
def TypeExpr.qualified
    (declared : String → Bool)
    (qualifier : Ident) :
    TypeExpr → TypeExpr
  | .name span none (some ident) hasArgs args =>
      .name span (if declared ident.text then some qualifier else none) (some ident) hasArgs
        (typesQualified declared qualifier args)
  | .pointer span elem => .pointer span (elem.qualified declared qualifier)
  | .slice span elem => .slice span (elem.qualified declared qualifier)
  | .array span length elem => .array span length (elem.qualified declared qualifier)
  | .map span key value =>
      .map span (key.qualified declared qualifier) (value.qualified declared qualifier)
  | .chan span direction elem => .chan span direction (elem.qualified declared qualifier)
  | .func span params result =>
      .func span (params.qualified declared qualifier) (result.qualified declared qualifier)
  | .paren span inner => .paren span (inner.qualified declared qualifier)
  | other => other

/-- Type expressions with a qualifier in front of certain names. -/
def typesQualified
    (declared : String → Bool)
    (qualifier : Ident) :
    List TypeExpr → List TypeExpr
  | [] => []
  | first :: rest =>
      first.qualified declared qualifier :: typesQualified declared qualifier rest

/-- A parameter list with a qualifier in front of certain names. -/
def ParamList.qualified
    (declared : String → Bool)
    (qualifier : Ident) :
    ParamList → ParamList
  | .absent => .absent
  | .list span params =>
      .list span
        (paramsQualified declared qualifier (params.any fun param => param.name.isSome) params)

/--
Entries of a parameter list with a qualifier in front of certain names.  In a list with names an
entry without one is a name itself.
-/
def paramsQualified
    (declared : String → Bool)
    (qualifier : Ident)
    (grouped : Bool) :
    List Param → List Param
  | [] => []
  | .mk span name variadic type :: rest =>
      .mk span name variadic
          (if grouped && name.isNone then type else type.qualified declared qualifier) ::
        paramsQualified declared qualifier grouped rest

/-- Results with a qualifier in front of certain names. -/
def Result.qualified
    (declared : String → Bool)
    (qualifier : Ident) :
    Result → Result
  | .absent => .absent
  | .single type => .single (type.qualified declared qualifier)
  | .list params => .list (params.qualified declared qualifier)

end

mutual

/-- The names without a qualifier that stand for types in a type expression. -/
def TypeExpr.typeNames : TypeExpr → List String
  | .name _ none (some ident) _ args => ident.text :: typeNamesOf args
  | .pointer _ elem => elem.typeNames
  | .slice _ elem => elem.typeNames
  | .array _ _ elem => elem.typeNames
  | .map _ key value => key.typeNames ++ value.typeNames
  | .chan _ _ elem => elem.typeNames
  | .func _ params result => params.typeNames ++ result.typeNames
  | .paren _ inner => inner.typeNames
  | _ => []

/-- The names that stand for types in type expressions. -/
def typeNamesOf : List TypeExpr → List String
  | [] => []
  | first :: rest => first.typeNames ++ typeNamesOf rest

/-- The names that stand for types in a parameter list. -/
def ParamList.typeNames : ParamList → List String
  | .absent => []
  | .list _ params => paramTypeNames (params.any fun param => param.name.isSome) params

/-- The names that stand for types in the entries of a parameter list. -/
def paramTypeNames
    (grouped : Bool) :
    List Param → List String
  | [] => []
  | .mk _ name _ type :: rest =>
      (if grouped && name.isNone then [] else type.typeNames) ++ paramTypeNames grouped rest

/-- The names that stand for types in results. -/
def Result.typeNames : Result → List String
  | .absent => []
  | .single type => type.typeNames
  | .list params => params.typeNames

end

/-- A qualifier in front of types leaves the names of entries as they are. -/
@[simp] theorem any_name_paramsQualified
    (declared : String → Bool)
    (qualifier : Ident)
    (grouped : Bool)
    (params : List Param) :
    (paramsQualified declared qualifier grouped params).any (fun param => param.name.isSome) =
      params.any fun param => param.name.isSome := by
  induction params with
  | nil => rfl
  | cons param rest inductionHypothesis =>
      cases param
      rw [paramsQualified, List.any_cons, List.any_cons, inductionHypothesis]
      rfl

/-- Identifiers that differ in their place only have the same text. -/
theorem Ident.text_eq_of_moved
    {move : Span → Span}
    {left right : Ident}
    (same : left.moved move = right.moved move) :
    left.text = right.text := by
  simpa using congrArg Ident.text same

section Portable

variable (home abroad : Scope)

/-- Whether a name is a predeclared one that neither package declares itself. -/
def Predeclares
    (name : String) :
    Prop :=
  isPredeclared name ∧ home.lookup? name = none ∧ abroad.lookup? name = none

mutual

/--
Whether a type expression of one package can be written in another: it is built from predeclared
names, declared names and their instantiations, pointers, slices, arrays, maps, channels, functions
and parentheses.
-/
def TypeExpr.Portable : TypeExpr → Prop
  | .name _ none (some ident) _ args =>
      home.declaresType ident.text ∧ TypesPortable args ∨
        Predeclares home abroad ident.text ∧ args = []
  | .pointer _ elem => elem.Portable
  | .slice _ elem => elem.Portable
  | .array _ _ elem => elem.Portable
  | .map _ key value => key.Portable ∧ value.Portable
  | .chan _ _ elem => elem.Portable
  | .func _ params result => params.Portable ∧ result.Portable
  | .paren _ inner => inner.Portable
  | _ => False

/-- Whether all type expressions of a list can be written in another package. -/
def TypesPortable : List TypeExpr → Prop
  | [] => True
  | first :: rest => first.Portable ∧ TypesPortable rest

/-- Whether a parameter list can be written in another package. -/
def ParamList.Portable : ParamList → Prop
  | .absent => True
  | .list _ params => ParamsPortable (params.any fun param => param.name.isSome) params

/-- Whether the entries of a parameter list can be written in another package. -/
def ParamsPortable
    (grouped : Bool) :
    List Param → Prop
  | [] => True
  | .mk _ name _ type :: rest =>
      (if grouped && name.isNone then True else type.Portable) ∧ ParamsPortable grouped rest

/-- Whether results can be written in another package. -/
def Result.Portable : Result → Prop
  | .absent => True
  | .single type => type.Portable
  | .list params => params.Portable

end

end Portable

end Syntax

namespace Resolve

/-- Whether a resolution answers with a value in some state. -/
def MayAnswer
    (resolution : Resolve α)
    (value : α) :
    Prop :=
  ∃ before after, resolution before = (.ok value, after)

/-- One resolution after the other answers only if both do. -/
theorem MayAnswer.andThen
    {first : Resolve α}
    {next : α → Resolve β}
    {result : β}
    (answers : (first.andThen next).MayAnswer result) :
    ∃ value, first.MayAnswer value ∧ (next value).MayAnswer result := by
  obtain ⟨before, after, answered⟩ := answers
  obtain ⟨value, middle, ran, ranNext⟩ := andThen_ok answered
  exact ⟨value, ⟨before, middle, ran⟩, ⟨middle, after, ranNext⟩⟩

theorem mayAnswer_answer
    {value result : α} :
    (Resolve.answer value).MayAnswer result ↔ value = result :=
  ⟨fun ⟨_, _, answered⟩ => Except.ok.inj (Prod.mk.inj answered).1,
    fun same => ⟨.initial, .initial, same ▸ rfl⟩⟩

/-- What is made of the value of a resolution answers only if the resolution does. -/
theorem MayAnswer.made
    {first : Resolve α}
    {make : α → β}
    {result : β}
    (answers : (first.andThen fun value => .answer (make value)).MayAnswer result) :
    ∃ value, first.MayAnswer value ∧ make value = result := by
  obtain ⟨value, ran, answered⟩ := answers.andThen
  exact ⟨value, ran, mayAnswer_answer.mp answered⟩

/-- What is made of the values of two resolutions answers only if both do. -/
theorem MayAnswer.madeOfTwo
    {first : Resolve α}
    {second : Resolve β}
    {make : α → β → γ}
    {result : γ}
    (answers :
      (first.andThen fun value => second.andThen fun other =>
        .answer (make value other)).MayAnswer result) :
    ∃ value other, first.MayAnswer value ∧ second.MayAnswer other ∧ make value other = result := by
  obtain ⟨value, ran, next⟩ := answers.andThen
  obtain ⟨other, ranOther, made⟩ := next.made
  exact ⟨value, other, ran, ranOther, made⟩

theorem not_mayAnswer_fail
    {error : UnitError}
    {value : α} :
    ¬(Resolve.fail error).MayAnswer value := by
  rintro ⟨_, _, answered⟩
  cases answered

/-- Looking into an alias answers only what its right-hand side does. -/
theorem MayAnswer.expanding
    {decl : TypeDecl}
    {inside : Resolve α}
    {value : α}
    (answers : (Resolve.expanding decl inside).MayAnswer value) :
    inside.MayAnswer value := by
  obtain ⟨before, after, answered⟩ := answers
  obtain ⟨-, middle, ran, -⟩ := Resolve.expanding_ok answered
  exact ⟨_, middle, ran⟩

end Resolve

/-! ## The types they denote -/

/-- Whether a type is named and, once imported owners are replaced, owned by a package. -/
def Ty.NamedIn
    (scanned : ScannedPackages)
    (package : PackageId)
    (name : String)
    (type : Ty) :
    Prop :=
  ∃ owner args, type = .named owner name args ∧ (owner.localize scanned).same (.local package)

/--
That two types are the same is settled by a condition: they are whenever it holds, and, given
honest declarations, only then.
-/
structure Ty.Settled
    (honest condition : Prop)
    (same : Bool) :
    Prop where
  sound : condition → same = true
  complete : honest → same = true → condition

namespace Ty.Settled

variable {honest condition other : Prop} {same sameOther : Bool}

theorem trivial :
    Ty.Settled honest True true :=
  ⟨fun _ => rfl, fun _ _ => True.intro⟩

theorem and
    (settled : Ty.Settled honest condition same)
    (settledOther : Ty.Settled honest other sameOther) :
    Ty.Settled honest (condition ∧ other) (same && sameOther) := by
  constructor
  · intro both
    rw [settled.sound both.1, settledOther.sound both.2]
    rfl
  · intro honest both
    rw [Bool.and_eq_true] at both
    exact ⟨settled.complete honest both.1, settledOther.complete honest both.2⟩

theorem congr
    (settled : Ty.Settled honest condition same)
    (iff : condition ↔ other)
    (eq : same = sameOther) :
    Ty.Settled honest other sameOther := by
  rw [← eq]
  exact ⟨settled.sound ∘ iff.mpr, fun honest => iff.mp ∘ settled.complete honest⟩

end Ty.Settled

/--
What a package abroad sees of the package at home: a qualifier that is bound to its import path,
which stands for the package at home once imported owners are replaced.  Its declarations are
honest when no alias stands for a type of the alias's own name.
-/
structure Crossing
    (home : Scope)
    (meaning : Meaning)
    (outside : FileScope)
    (scanned : ScannedPackages)
    (qualifier : Syntax.Ident)
    (honest : Prop) :
    Prop where
  bound :
    ∃ path package,
      outside.importPath? qualifier.text = some path ∧
        scanned path = some package ∧ package.same home.package
  truthful :
    honest → ∀ {name : String} {decl : TypeDecl} {type : Ty},
      home.lookup? name = some decl → decl.spec.isAlias →
        (meaning.typeOfAlias decl).MayAnswer type → ¬type.NamedIn scanned home.package name

section Lowering

open Syntax (Ident TypeExpr ParamList Param)

variable
  {home abroad : Scope}
  {inner outer : Meaning}
  {inside outside : FileScope}
  {scanned : ScannedPackages}
  {qualifier : Ident}
  {honest : Prop}

/-- A predeclared name that no package declares denotes one type everywhere. -/
theorem exists_undeclaredType
    {ident : Ident}
    (isKnown : isPredeclared ident.text) :
    ∃ type : Ty,
      (type.localize scanned).same (type.localize scanned) ∧
        ∀ file : FileScope, ∀ other : Ident, other.text = ident.text →
          Scope.undeclaredType file other [] = .answer type := by
  have known (name : String) :
      ((Ty.predeclared name).localize scanned).same ((Ty.predeclared name).localize scanned) := by
    simp [Ty.predeclared, Ty.localize, Ty.localizeList, Owner.localize, Ty.same, Ty.sameList,
      Owner.same]
  by_cases isByte : ident.text = "byte"
  · exact ⟨_, known "uint8", fun file other eq => by simp [Scope.undeclaredType, eq, isByte]⟩
  by_cases isRune : ident.text = "rune"
  · exact ⟨_, known "int32", fun file other eq => by simp [Scope.undeclaredType, eq, isRune]⟩
  by_cases isAny : ident.text = "any"
  · exact ⟨.emptyInterface, rfl, fun file other eq => by simp [Scope.undeclaredType, eq, isAny]⟩
  refine ⟨_, known ident.text, fun file other eq => ?_⟩
  simp [Scope.undeclaredType, eq, isKnown]

/-- A predeclared name denotes the same type in both packages if neither declares it. -/
theorem same_of_undeclared
    {ident ident' : Ident}
    {left right : Ty}
    (isKnown : isPredeclared ident.text)
    (unshadowed : home.lookup? ident.text = none)
    (unshadowedAbroad : abroad.lookup? ident.text = none)
    (sameText : ident'.text = ident.text)
    (lowered : (home.namedType inner inside none ident []).MayAnswer left)
    (loweredOutside : (abroad.namedType outer outside none ident' []).MayAnswer right) :
    (left.localize scanned).same (right.localize scanned) := by
  obtain ⟨type, selfSame, denotes⟩ := exists_undeclaredType isKnown
  simp only [Scope.namedType, unshadowed] at lowered
  simp only [Scope.namedType, sameText, unshadowedAbroad] at loweredOutside
  rw [denotes inside ident rfl, Resolve.mayAnswer_answer] at lowered
  rw [denotes outside ident' sameText, Resolve.mayAnswer_answer] at loweredOutside
  rw [← lowered, ← loweredOutside]
  exact selfSame

/-- A declared name and the name behind a qualifier denote the same type unless it is an alias. -/
theorem Crossing.namedType
    (crossing : Crossing home inner outside scanned qualifier honest)
    {ident ident' qualifier' : Ident}
    {args args' : List Ty}
    {condition : Prop}
    {left right : Ty}
    (declared : home.declaresType ident.text)
    (sameText : ident'.text = ident.text)
    (sameQualifier : qualifier'.text = qualifier.text)
    (settled :
      Ty.Settled honest condition
        (Ty.sameList (Ty.localizeList scanned args) (Ty.localizeList scanned args')))
    (lowered : (home.namedType inner inside none ident args).MayAnswer left)
    (loweredOutside :
      (abroad.namedType outer outside (some qualifier') ident' args').MayAnswer right) :
    Ty.Settled honest
      ((∀ decl, home.lookup? ident.text = some decl → decl.spec.isAlias = false) ∧ condition)
      ((left.localize scanned).same (right.localize scanned)) := by
  obtain ⟨path, package, bound, stands, same⟩ := crossing.bound
  obtain ⟨decl, found⟩ := Option.isSome_iff_exists.mp declared
  simp only [Scope.namedType, sameQualifier, bound, Resolve.mayAnswer_answer] at loweredOutside
  subst loweredOutside
  simp only [Ty.localize, Owner.localize, stands, sameText]
  simp only [Scope.namedType, found] at lowered
  cases isAlias : decl.spec.isAlias with
  | true =>
      rw [isAlias, if_pos rfl] at lowered
      constructor
      · intro condition
        rw [condition.1 decl found] at isAlias
        cases isAlias
      · -- An alias that denotes the type of its own name would not be honest.
        intro isHonest isSame
        refine absurd ?_ (crossing.truthful isHonest found isAlias lowered)
        cases left <;> simp only [Ty.localize, Ty.same, Bool.false_eq_true, Bool.and_eq_true,
          beq_iff_eq] at isSame
        exact ⟨_, _, by rw [isSame.1.2], Owner.same_trans isSame.1.1 same⟩
  | false =>
      simp only [isAlias, Bool.false_eq_true, if_false, Resolve.mayAnswer_answer] at lowered
      subst lowered
      have owner : home.package.same package := by
        rw [PackageId.same_iff] at same ⊢
        exact ⟨same.1.symm, same.2.symm⟩
      refine settled.congr ?_ (by simp [Ty.localize, Owner.localize, Ty.same, Owner.same, owner])
      simp [found, isAlias]

/-- Repeating the type of an entry for the names in front of it changes nothing about sameness. -/
theorem Ty.sameList_replicate
    (own own' : Ty)
    (others others' : List Ty)
    (count : Nat) :
    Ty.sameList (Ty.localizeList scanned (List.replicate (count + 1) own ++ others))
        (Ty.localizeList scanned (List.replicate (count + 1) own' ++ others')) =
      ((own.localize scanned).same (own'.localize scanned) &&
        Ty.sameList (Ty.localizeList scanned others) (Ty.localizeList scanned others')) := by
  induction count with
  | zero => rfl
  | succ count inductionHypothesis =>
      have first (type : Ty) (rest : List Ty) :
          List.replicate (count + 1 + 1) type ++ rest =
            type :: (List.replicate (count + 1) type ++ rest) :=
        rfl
      simp only [first, Ty.localizeList, Ty.sameList, inductionHypothesis, ← Bool.and_assoc,
        Bool.and_self]

mutual

/-- A type expression and its qualified form denote the same type unless an alias occurs. -/
theorem Crossing.lowerTypeWith
    (crossing : Crossing home inner outside scanned qualifier honest) :
    ∀ (expr : TypeExpr) {written : TypeExpr} {left right : Ty},
      expr.Portable home abroad →
      written.Alike (expr.qualified home.declaresType qualifier) →
      (home.lowerTypeWith inner inside expr).MayAnswer left →
      (abroad.lowerTypeWith outer outside written).MayAnswer right →
      Ty.Settled honest (home.NoAlias expr.typeNames)
        ((left.localize scanned).same (right.localize scanned))
  | .name _ none (some ident) _ args, written, left, right, portable, alike, lowered,
      loweredOutside => by
      obtain ⟨_, qualifier', ident', args', rfl, sameQualifier, sameIdent, sameArgs⟩ :=
        TypeExpr.moved_eq_name alike
      obtain ⟨ident', rfl, movedSame⟩ := Option.map_eq_some_iff.mp sameIdent
      have sameText : ident'.text = ident.text := Ident.text_eq_of_moved movedSame
      obtain ⟨types, ranTypes, named⟩ := lowered.andThen
      obtain ⟨types', ranTypes', namedOutside⟩ := loweredOutside.andThen
      rcases portable with ⟨declared, argsPortable⟩ | ⟨⟨isKnown, unshadowed, unshadowedAbroad⟩, rfl⟩
      · rw [if_pos declared] at sameQualifier
        obtain ⟨qualifier', rfl, movedQualifier⟩ := Option.map_eq_some_iff.mp sameQualifier
        refine (crossing.namedType declared sameText (Ident.text_eq_of_moved movedQualifier)
          (crossing.lowerTypesWith args argsPortable sameArgs ranTypes ranTypes') named
          namedOutside).congr ?_ rfl
        exact Scope.noAlias_cons.symm
      · have undeclared : home.declaresType ident.text = false := by
          simp [Scope.declaresType, unshadowed]
        rw [undeclared, if_neg Bool.false_ne_true, Option.map_none,
          Option.map_eq_none_iff] at sameQualifier
        subst sameQualifier
        cases args' with
        | cons _ _ => cases sameArgs
        | nil =>
            cases Resolve.mayAnswer_answer.mp ranTypes
            cases Resolve.mayAnswer_answer.mp ranTypes'
            refine Ty.Settled.trivial.congr (iff_of_true trivial ?_)
              (same_of_undeclared isKnown unshadowed unshadowedAbroad sameText named
                namedOutside).symm
            exact Scope.noAlias_cons.mpr ⟨by simp [unshadowed], Scope.noAlias_nil⟩
  | .pointer _ elem, written, left, right, portable, alike, lowered, loweredOutside => by
      obtain ⟨_, _, rfl, elemAlike⟩ := TypeExpr.moved_eq_pointer alike
      obtain ⟨_, one, rfl⟩ := lowered.made
      obtain ⟨_, other, rfl⟩ := loweredOutside.made
      exact (crossing.lowerTypeWith elem portable elemAlike one other).congr Iff.rfl rfl
  | .slice _ elem, written, left, right, portable, alike, lowered, loweredOutside => by
      obtain ⟨_, _, rfl, elemAlike⟩ := TypeExpr.moved_eq_slice alike
      obtain ⟨_, one, rfl⟩ := lowered.made
      obtain ⟨_, other, rfl⟩ := loweredOutside.made
      exact (crossing.lowerTypeWith elem portable elemAlike one other).congr Iff.rfl rfl
  | .array _ length elem, written, left, right, portable, alike, lowered, loweredOutside => by
      obtain ⟨_, _, rfl, elemAlike⟩ := TypeExpr.moved_eq_array alike
      obtain ⟨_, one, rfl⟩ := lowered.made
      obtain ⟨_, other, rfl⟩ := loweredOutside.made
      refine (crossing.lowerTypeWith elem portable elemAlike one other).congr Iff.rfl ?_
      simp [Ty.localize, Ty.same]
  | .map _ key value, written, left, right, portable, alike, lowered, loweredOutside => by
      obtain ⟨_, _, _, rfl, keyAlike, valueAlike⟩ := TypeExpr.moved_eq_map alike
      obtain ⟨_, _, ranKey, ranValue, rfl⟩ := lowered.madeOfTwo
      obtain ⟨_, _, ranKey', ranValue', rfl⟩ := loweredOutside.madeOfTwo
      exact ((crossing.lowerTypeWith key portable.1 keyAlike ranKey ranKey').and
        (crossing.lowerTypeWith value portable.2 valueAlike ranValue ranValue')).congr
          Scope.noAlias_append.symm rfl
  | .chan _ direction elem, written, left, right, portable, alike, lowered, loweredOutside => by
      obtain ⟨_, _, rfl, elemAlike⟩ := TypeExpr.moved_eq_chan alike
      obtain ⟨_, one, rfl⟩ := lowered.made
      obtain ⟨_, other, rfl⟩ := loweredOutside.made
      refine (crossing.lowerTypeWith elem portable elemAlike one other).congr Iff.rfl ?_
      simp [Ty.localize, Ty.same]
  | .func _ params result, written, left, right, portable, alike, lowered, loweredOutside => by
      obtain ⟨_, _, _, rfl, paramsAlike, resultAlike⟩ := TypeExpr.moved_eq_func alike
      obtain ⟨_, _, ranParams, ranResult, rfl⟩ := lowered.madeOfTwo
      obtain ⟨_, _, ranParams', ranResult', rfl⟩ := loweredOutside.madeOfTwo
      obtain ⟨paramsSettled, sameVariadic⟩ :=
        crossing.lowerParamListWith params portable.1 paramsAlike ranParams ranParams'
      refine (paramsSettled.and
        (crossing.lowerResultWith result portable.2 resultAlike ranResult ranResult')).congr
          Scope.noAlias_append.symm ?_
      simp [Ty.localize, Ty.same, Signature.localize, Signature.same, sameVariadic]
  | .paren _ inner, written, left, right, portable, alike, lowered, loweredOutside => by
      obtain ⟨_, _, rfl, innerAlike⟩ := TypeExpr.moved_eq_paren alike
      exact crossing.lowerTypeWith inner portable innerAlike lowered loweredOutside
termination_by structural expr => expr

/-- The same for the type expressions of a list. -/
theorem Crossing.lowerTypesWith
    (crossing : Crossing home inner outside scanned qualifier honest) :
    ∀ (types : List TypeExpr) {written : List TypeExpr} {left right : List Ty},
      Syntax.TypesPortable home abroad types →
      Syntax.typesMoved Syntax.nowhere written =
        Syntax.typesMoved Syntax.nowhere
          (Syntax.typesQualified home.declaresType qualifier types) →
      (home.lowerTypesWith inner inside types).MayAnswer left →
      (abroad.lowerTypesWith outer outside written).MayAnswer right →
      Ty.Settled honest (home.NoAlias (Syntax.typeNamesOf types))
        (Ty.sameList (Ty.localizeList scanned left) (Ty.localizeList scanned right))
  | [], written, left, right, _, alike, lowered, loweredOutside => by
      cases written with
      | cons _ _ => cases alike
      | nil =>
          rw [← Resolve.mayAnswer_answer.mp lowered, ← Resolve.mayAnswer_answer.mp loweredOutside]
          exact Ty.Settled.trivial.congr (iff_of_true trivial Scope.noAlias_nil) rfl
  | first :: rest, written, left, right, portable, alike, lowered, loweredOutside => by
      cases written with
      | nil => cases alike
      | cons firstWritten restWritten =>
          obtain ⟨firstAlike, restAlike⟩ := List.cons.inj alike
          obtain ⟨_, _, ranFirst, ranRest, rfl⟩ := lowered.madeOfTwo
          obtain ⟨_, _, ranFirst', ranRest', rfl⟩ := loweredOutside.madeOfTwo
          exact ((crossing.lowerTypeWith first portable.1 firstAlike ranFirst ranFirst').and
            (crossing.lowerTypesWith rest portable.2 restAlike ranRest ranRest')).congr
              Scope.noAlias_append.symm rfl
termination_by structural types => types

/-- The same for the entries of a parameter list. -/
theorem Crossing.lowerParamsWith
    (crossing : Crossing home inner outside scanned qualifier honest)
    (list list' : Syntax.Span)
    (grouped : Bool) :
    ∀ (params : List Param) {pending : Nat} {written : List Param} {left right : List Ty × Bool},
      Syntax.ParamsPortable home abroad grouped params →
      Syntax.paramsMoved Syntax.nowhere written =
        Syntax.paramsMoved Syntax.nowhere
          (Syntax.paramsQualified home.declaresType qualifier grouped params) →
      (home.lowerParamsWith inner inside list grouped pending params).MayAnswer left →
      (abroad.lowerParamsWith outer outside list' grouped pending written).MayAnswer right →
      Ty.Settled honest (home.NoAlias (Syntax.paramTypeNames grouped params))
          (Ty.sameList (Ty.localizeList scanned left.1) (Ty.localizeList scanned right.1)) ∧
        left.2 = right.2
  | [], pending, written, left, right, _, alike, lowered, loweredOutside => by
      cases written with
      | cons param _ =>
          cases param
          cases alike
      | nil =>
          simp only [Scope.lowerParamsWith] at lowered loweredOutside
          split at lowered
          · next none =>
              rw [if_pos none] at loweredOutside
              rw [← Resolve.mayAnswer_answer.mp lowered,
                ← Resolve.mayAnswer_answer.mp loweredOutside]
              exact ⟨Ty.Settled.trivial.congr (iff_of_true trivial Scope.noAlias_nil) rfl, rfl⟩
          · exact absurd lowered Resolve.not_mayAnswer_fail
  | .mk _ name variadic type :: rest, pending, written, left, right, portable, alike, lowered,
      loweredOutside => by
      rcases written with _ | ⟨⟨_, name', variadic', type'⟩, restWritten⟩
      · cases alike
      obtain ⟨entryAlike, restAlike⟩ := List.cons.inj alike
      simp only [Param.mk.injEq] at entryAlike
      obtain ⟨-, sameName, rfl, typeAlike⟩ := entryAlike
      have sameNone : name'.isNone = name.isNone := by
        simpa using congrArg Option.isNone sameName
      simp only [Scope.lowerParamsWith, sameNone] at lowered loweredOutside
      simp only [Syntax.ParamsPortable] at portable
      simp only [Syntax.paramTypeNames]
      cases isName : grouped && name.isNone with
      | true =>
          simp only [isName, if_true] at lowered loweredOutside
          exact crossing.lowerParamsWith list list' grouped rest portable.2 restAlike lowered
            loweredOutside
      | false =>
          simp only [isName, Bool.false_eq_true, if_false] at lowered loweredOutside
          simp only [isName, Bool.false_eq_true, if_false] at portable typeAlike
          obtain ⟨own, others, ranType, ranRest, rfl⟩ := lowered.madeOfTwo
          obtain ⟨own', others', ranType', ranRest', rfl⟩ := loweredOutside.madeOfTwo
          have settled := crossing.lowerTypeWith type portable.1 typeAlike ranType ranType'
          obtain ⟨othersSettled, sameVariadic⟩ :=
            crossing.lowerParamsWith list list' grouped rest portable.2 restAlike ranRest ranRest'
          refine ⟨(settled.and othersSettled).congr Scope.noAlias_append.symm ?_, ?_⟩
          · rw [Ty.sameList_replicate]
            cases variadic' <;> rfl
          · simp [sameVariadic]
termination_by structural params => params

/-- The same for a parameter list. -/
theorem Crossing.lowerParamListWith
    (crossing : Crossing home inner outside scanned qualifier honest) :
    ∀ (params : ParamList) {written : ParamList} {left right : List Ty × Bool},
      params.Portable home abroad →
      written.moved Syntax.nowhere =
        (params.qualified home.declaresType qualifier).moved Syntax.nowhere →
      (home.lowerParamListWith inner inside params).MayAnswer left →
      (abroad.lowerParamListWith outer outside written).MayAnswer right →
      Ty.Settled honest (home.NoAlias params.typeNames)
          (Ty.sameList (Ty.localizeList scanned left.1) (Ty.localizeList scanned right.1)) ∧
        left.2 = right.2
  | .absent, written, left, right, _, alike, lowered, loweredOutside => by
      cases written with
      | list _ _ => cases alike
      | absent =>
          rw [← Resolve.mayAnswer_answer.mp lowered, ← Resolve.mayAnswer_answer.mp loweredOutside]
          exact ⟨Ty.Settled.trivial.congr (iff_of_true trivial Scope.noAlias_nil) rfl, rfl⟩
  | .list _ params, written, left, right, portable, alike, lowered, loweredOutside => by
      cases written with
      | absent => cases alike
      | list _ paramsWritten =>
          obtain ⟨-, paramsAlike⟩ := ParamList.list.inj alike
          have sameGrouped :
              (paramsWritten.any fun param => param.name.isSome) =
                params.any fun param => param.name.isSome := by
            simpa using congrArg (List.any · fun param => param.name.isSome) paramsAlike
          simp only [Scope.lowerParamListWith, sameGrouped] at lowered loweredOutside
          exact crossing.lowerParamsWith _ _ _ params portable paramsAlike lowered loweredOutside
termination_by structural params => params

/-- The same for results. -/
theorem Crossing.lowerResultWith
    (crossing : Crossing home inner outside scanned qualifier honest) :
    ∀ (result : Syntax.Result) {written : Syntax.Result} {left right : List Ty},
      result.Portable home abroad →
      written.moved Syntax.nowhere =
        (result.qualified home.declaresType qualifier).moved Syntax.nowhere →
      (home.lowerResultWith inner inside result).MayAnswer left →
      (abroad.lowerResultWith outer outside written).MayAnswer right →
      Ty.Settled honest (home.NoAlias result.typeNames)
        (Ty.sameList (Ty.localizeList scanned left) (Ty.localizeList scanned right))
  | .absent, written, left, right, _, alike, lowered, loweredOutside => by
      cases written with
      | single _ => cases alike
      | list _ => cases alike
      | absent =>
          rw [← Resolve.mayAnswer_answer.mp lowered, ← Resolve.mayAnswer_answer.mp loweredOutside]
          exact Ty.Settled.trivial.congr (iff_of_true trivial Scope.noAlias_nil) rfl
  | .single type, written, left, right, portable, alike, lowered, loweredOutside => by
      cases written with
      | absent => cases alike
      | list _ => cases alike
      | single typeWritten =>
          obtain ⟨_, one, rfl⟩ := lowered.made
          obtain ⟨_, other, rfl⟩ := loweredOutside.made
          refine (crossing.lowerTypeWith type portable (Syntax.Result.single.inj alike) one
            other).congr Iff.rfl ?_
          simp [Ty.localizeList, Ty.sameList]
  | .list params, written, left, right, portable, alike, lowered, loweredOutside => by
      cases written with
      | absent => cases alike
      | single _ => cases alike
      | list paramsWritten =>
          obtain ⟨_, one, rfl⟩ := lowered.made
          obtain ⟨_, other, rfl⟩ := loweredOutside.made
          exact (crossing.lowerParamListWith params portable (Syntax.Result.list.inj alike) one
            other).1
termination_by structural result => result

end

end Lowering

end Implementers
