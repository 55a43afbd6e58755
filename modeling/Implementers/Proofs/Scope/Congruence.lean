import Implementers.Proofs.Scope.Relocation

/-!
# Relations between resolutions

Facts about two resolutions of the same source text, such as two runs from different states or runs
over two packages that differ in positions only, all go through the lowering of type expressions in
the same way.  A congruence is a relation between resolutions with one closure clause for each way
to build a resolution.  The lowering functions map declared names whose meanings are related to
related resolutions, for every congruence; this is shown once here.
-/

namespace Implementers

open Syntax (Ident TypeExpr ParamList Param FieldDecl Elem)

/--
A relation between resolutions, given a relation between their answers, with a clause for every way
to build a resolution apart from looking into declarations.
-/
structure Congruence where
  Related : {α β : Type} → (α → β → Prop) → Resolve α → Resolve β → Prop
  answer :
    ∀ {α β : Type} {agree : α → β → Prop} {left : α} {right : β},
      agree left right → Related agree (.answer left) (.answer right)
  fail :
    ∀ {α β : Type} {agree : α → β → Prop} (left right : UnitError),
      Related agree (.fail left) (.fail right)
  warn :
    ∀ left right : Warning, Related Eq (.warn left) (.warn right)
  andThen :
    ∀ {α β γ δ : Type} {agree : α → β → Prop} {agreeNext : γ → δ → Prop}
      {left : Resolve α} {right : Resolve β}
      {leftNext : α → Resolve γ} {rightNext : β → Resolve δ},
      Related agree left right →
      (∀ first second, agree first second →
        Related agreeNext (leftNext first) (rightNext second)) →
      Related agreeNext (left.andThen leftNext) (right.andThen rightNext)

/-- One package in the place of another: every declared name is found in its new place. -/
structure Relocation.Moves
    (relocation : Relocation)
    (before after : Scope) :
    Prop where
  package : after.package = before.package
  size : after.decls.length = before.decls.length
  lookup : ∀ name, after.lookup? name = (before.lookup? name).map relocation.decl

namespace Relocation

/-- What is underneath a name agrees when it is the same in its new place. -/
def Underlies
    (relocation : Relocation)
    (before after : Underlying) :
    Prop :=
  relocation.underlying before = after

/-- In its old place a name has the same underneath it. -/
@[simp] theorem underlies_stay :
    stay.Underlies = Eq := by
  funext before after
  simp [Underlies]

/-- Staying leaves a package as it is. -/
theorem Moves.stay
    (scope : Scope) :
    Relocation.stay.Moves scope scope :=
  ⟨rfl, rfl, fun name => by cases scope.lookup? name <;> simp⟩

end Relocation

namespace Congruence

/-- The declared names of two packages mean related things. -/
structure Agreement
    (congruence : Congruence)
    (relocation : Relocation)
    (scope : Scope)
    (left right : Meaning) :
    Prop where
  typeOfAlias :
    ∀ name decl, scope.lookup? name = some decl → decl.spec.isAlias = true →
      congruence.Related Eq (left.typeOfAlias decl) (right.typeOfAlias (relocation.decl decl))
  underlying :
    ∀ name decl, scope.lookup? name = some decl →
      congruence.Related relocation.Underlies
        (left.underlying decl) (right.underlying (relocation.decl decl))

section Lowering

variable
  (congruence : Congruence)
  {relocation : Relocation}
  {before after : Scope}
  {left right : Meaning}
  (moves : relocation.Moves before after)
  (agreement : congruence.Agreement relocation before left right)

/-- Resolutions with equal answers may be followed by related ones. -/
theorem sequence
    {agree : β → γ → Prop}
    {left right : Resolve α}
    {leftNext : α → Resolve β}
    {rightNext : α → Resolve γ}
    (related : congruence.Related Eq left right)
    (next : ∀ value, congruence.Related agree (leftNext value) (rightNext value)) :
    congruence.Related agree (left.andThen leftNext) (right.andThen rightNext) :=
  congruence.andThen related fun value _ same => same ▸ next value

/-- Two resolutions that branch in the same way. -/
theorem branch
    {agree : α → β → Prop}
    {leftCondition rightCondition : Prop}
    [Decidable leftCondition]
    [Decidable rightCondition]
    {leftThen leftElse : Resolve α}
    {rightThen rightElse : Resolve β}
    (same : rightCondition ↔ leftCondition)
    (relatedThen : leftCondition → congruence.Related agree leftThen rightThen)
    (relatedElse : ¬leftCondition → congruence.Related agree leftElse rightElse) :
    congruence.Related agree
      (if leftCondition then leftThen else leftElse)
      (if rightCondition then rightThen else rightElse) := by
  by_cases holds : leftCondition
  · rw [if_pos holds, if_pos (same.mpr holds)]
    exact relatedThen holds
  · rw [if_neg holds, if_neg fun right => holds (same.mp right)]
    exact relatedElse holds

/-- Answers that are known already are related when both are the same or both are errors. -/
theorem ofExcept
    {left right : Except UnitError α}
    (same : left.toOption = right.toOption) :
    congruence.Related Eq (Resolve.ofExcept left) (Resolve.ofExcept right) := by
  cases left with
  | ok value =>
      cases right with
      | ok other =>
          obtain rfl : value = other := Option.some.inj same
          exact congruence.answer rfl
      | error _ => simp [Except.toOption] at same
  | error leftError =>
      cases right with
      | ok _ => simp [Except.toOption] at same
      | error rightError => exact congruence.fail leftError rightError

/-- A relation between answers passes to what is computed from them. -/
theorem map
    {agree : α → β → Prop}
    {agreeNext : γ → δ → Prop}
    {first : Resolve α}
    {second : Resolve β}
    {leftNext : α → γ}
    {rightNext : β → δ}
    (related : congruence.Related agree first second)
    (next : ∀ value other, agree value other → agreeNext (leftNext value) (rightNext other)) :
    congruence.Related agreeNext
      (first.andThen fun value => .answer (leftNext value))
      (second.andThen fun value => .answer (rightNext value)) :=
  congruence.andThen related fun value other agrees =>
    congruence.answer (next value other agrees)

/-- The type of an undeclared name. -/
theorem undeclaredType
    (file : FileScope)
    (ident : Ident)
    (args : List Ty) :
    congruence.Related Eq
      (Scope.undeclaredType file ident args)
      (Scope.undeclaredType (relocation.file file) (ident.moved relocation.span) args) := by
  unfold Scope.undeclaredType
  simp only [Syntax.Ident.moved_text, relocation.dotImports]
  split
  · exact congruence.answer rfl
  · exact congruence.answer rfl
  · exact congruence.answer rfl
  · split
    · exact congruence.answer rfl
    · cases file.dotImports.head? with
      | some path => exact congruence.answer rfl
      | none => exact congruence.fail _ _

include moves agreement

/-- The type of a name. -/
theorem namedType
    (file : FileScope)
    (qualifier : Option Ident)
    (ident : Ident)
    (args : List Ty) :
    congruence.Related Eq
      (before.namedType left file qualifier ident args)
      (after.namedType right (relocation.file file) (qualifier.map (Ident.moved relocation.span))
        (ident.moved relocation.span) args) := by
  cases qualifier with
  | some package =>
      simp only [Scope.namedType, Option.map_some, Syntax.Ident.moved_text,
        Relocation.importPath?_file]
      cases file.importPath? package.text with
      | some path => exact congruence.answer rfl
      | none => exact congruence.fail _ _
  | none =>
      simp only [Scope.namedType, Option.map_none, Syntax.Ident.moved_text, moves.lookup,
        moves.package]
      cases found : before.lookup? ident.text with
      | some decl =>
          exact congruence.branch Iff.rfl
            (fun isAlias => agreement.typeOfAlias _ decl found isAlias)
            fun _ => congruence.answer rfl
      | none => exact congruence.undeclaredType file ident args

omit agreement in
/-- What is underneath an undeclared name. -/
theorem undeclaredUnderlying
    (file : FileScope)
    (ident : Ident) :
    congruence.Related relocation.Underlies
      (before.undeclaredUnderlying file ident)
      (after.undeclaredUnderlying (relocation.file file) (ident.moved relocation.span)) := by
  unfold Scope.undeclaredUnderlying
  simp only [Syntax.Ident.moved_text, relocation.dotImports, Scope.errorMethods, Scope.methodName,
    moves.package]
  split
  · exact congruence.answer rfl
  · exact congruence.answer rfl
  · exact congruence.answer rfl
  · split
    · exact congruence.answer rfl
    · cases file.dotImports.head? with
      | some path => exact congruence.answer rfl
      | none => exact congruence.fail _ _

/-- What is underneath a name without type arguments. -/
theorem plainNameUnderlying
    (file : FileScope)
    (span span' : Syntax.Span)
    (qualifier ident : Option Ident) :
    congruence.Related relocation.Underlies
      (before.plainNameUnderlying left file span qualifier ident)
      (after.plainNameUnderlying right (relocation.file file) span'
        (qualifier.map (Ident.moved relocation.span))
        (ident.map (Ident.moved relocation.span))) := by
  cases ident with
  | none => exact congruence.fail _ _
  | some ident =>
      cases qualifier with
      | some package =>
          simp only [Scope.plainNameUnderlying, Option.map_some, Syntax.Ident.moved_text,
            Relocation.importPath?_file]
          cases file.importPath? package.text with
          | some path => exact congruence.answer rfl
          | none => exact congruence.fail _ _
      | none =>
          simp only [Scope.plainNameUnderlying, Option.map_some, Option.map_none,
            Syntax.Ident.moved_text, moves.lookup]
          cases found : before.lookup? ident.text with
          | some decl => exact agreement.underlying _ decl found
          | none => exact congruence.undeclaredUnderlying moves file ident

end Lowering

end Congruence

/-- Whether a method can be added does not depend on where it stands. -/
theorem Scope.toOption_addMethod
    (position position' : Position)
    (set : MethodSet)
    (method : Method) :
    (addMethod position set method).toOption = (addMethod position' set method).toOption := by
  unfold addMethod
  cases set.get? method.name with
  | none => rfl
  | some existing =>
      cases shared : existing.same method.signature <;> simp [shared, Except.toOption]

/-- Whether methods can be added does not depend on where they stand. -/
theorem Scope.toOption_addMethods
    (position position' : Position)
    (set : MethodSet)
    (methods : List Method) :
    (addMethods position set methods).toOption = (addMethods position' set methods).toOption := by
  induction methods generalizing set with
  | nil => rfl
  | cons method rest inductionHypothesis =>
      have same := toOption_addMethod position position' set method
      simp only [addMethods]
      cases first : addMethod position set method <;>
        cases second : addMethod position' set method <;>
          simp only [first, second, Except.toOption, reduceCtorEq, Option.some.injEq] at same ⊢
      rw [same]
      exact inductionHypothesis _

/-- Whether an interface can be embedded does not depend on where it stands. -/
theorem Scope.toOption_embed
    (position position' : Position)
    (own inner : InterfaceMethods) :
    (embed position own inner).toOption = (embed position' own inner).toOption := by
  have same := toOption_addMethods position position' own.methods inner.methods.methods
  simp only [embed]
  cases first : addMethods position own.methods inner.methods.methods <;>
    cases second : addMethods position' own.methods inner.methods.methods <;>
      simp only [first, second, Except.toOption, reduceCtorEq, Option.some.injEq] at same ⊢
  rw [same]

namespace Congruence

/-- What an embedded name contributes to an interface. -/
theorem contribution
    (congruence : Congruence)
    {relocation : Relocation}
    (file : FileScope)
    (span span' : Syntax.Span)
    (position position' : Position)
    {before after : Underlying}
    (underlies : relocation.Underlies before after) :
    congruence.Related Eq
      (Scope.contribution file span position before)
      (Scope.contribution (relocation.file file) span' position' after) := by
  subst underlies
  cases before with
  | interface methods => exact congruence.answer rfl
  | struct _ _ => exact congruence.answer rfl
  | imported path =>
      simp only [Scope.contribution, Relocation.underlying]
      apply congruence.andThen (congruence.warn _ _)
      intro first second _
      exact congruence.answer rfl
  | other => exact congruence.answer rfl

section Lowering

variable
  (congruence : Congruence)
  {relocation : Relocation}
  {before after : Scope}
  {left right : Meaning}
  (moves : relocation.Moves before after)
  (agreement : congruence.Agreement relocation before left right)

include moves agreement

set_option linter.unusedSectionVars false in
mutual

/-- The type of a type expression. -/
theorem lowerTypeWith
    (file : FileScope) :
    ∀ expr : TypeExpr,
      congruence.Related Eq
        (before.lowerTypeWith left file expr)
        (after.lowerTypeWith right (relocation.file file) (expr.moved relocation.span))
  | .missing _ => congruence.fail _ _
  | .name _ qualifier none _ _ => congruence.fail _ _
  | .name _ qualifier (some ident) _ args => by
      apply congruence.sequence (lowerTypesWith file args)
      intro lowered
      exact congruence.namedType moves agreement file qualifier ident lowered
  | .pointer _ elem =>
      congruence.map (lowerTypeWith file elem) fun _ _ same => congrArg Ty.pointer same
  | .slice _ elem =>
      congruence.map (lowerTypeWith file elem) fun _ _ same => congrArg Ty.slice same
  | .array _ length elem =>
      congruence.map (lowerTypeWith file elem) fun _ _ same => congrArg (Ty.array length) same
  | .map _ key value => by
      apply congruence.sequence (lowerTypeWith file key)
      intro loweredKey
      exact congruence.map (lowerTypeWith file value) fun _ _ same =>
        congrArg (Ty.map loweredKey) same
  | .chan _ direction elem =>
      congruence.map (lowerTypeWith file elem) fun _ _ same => congrArg (Ty.chan direction) same
  | .func _ params result => by
      refine congruence.sequence (lowerParamListWith file params) fun ⟨types, variadic⟩ => ?_
      exact congruence.map (lowerResultWith file result) fun _ _ same =>
        congrArg (fun results => Ty.func (.mk types results variadic)) same
  | .struct _ fields =>
      congruence.map (lowerFieldsWith file fields) fun _ _ same => congrArg Ty.struct same
  | .interface _ elems =>
      congruence.map (interfaceMethodsWith file [] {} elems) fun _ _ same =>
        congrArg (fun interface => Ty.interface interface.methods) same
  | .paren _ inner => lowerTypeWith file inner

/-- The types of type expressions. -/
theorem lowerTypesWith
    (file : FileScope) :
    ∀ types : List TypeExpr,
      congruence.Related Eq
        (before.lowerTypesWith left file types)
        (after.lowerTypesWith right (relocation.file file)
          (Syntax.typesMoved relocation.span types))
  | [] => congruence.answer rfl
  | first :: rest => by
      apply congruence.sequence (lowerTypeWith file first)
      intro lowered
      exact congruence.map (lowerTypesWith file rest) fun _ _ same => congrArg (lowered :: ·) same

/-- The fields that field declarations make. -/
theorem lowerFieldsWith
    (file : FileScope) :
    ∀ fields : List FieldDecl,
      congruence.Related Eq
        (before.lowerFieldsWith left file fields)
        (after.lowerFieldsWith right (relocation.file file)
          (Syntax.fieldsMoved relocation.span fields))
  | [] => congruence.answer rfl
  | .mk span names starred type :: rest => by
      apply congruence.sequence (lowerTypeWith file type)
      intro lowered
      have others (declared : List StructField) :=
        congruence.map (lowerFieldsWith file rest) fun _ _ same => congrArg (declared ++ ·) same
      have sameName :=
        Syntax.FieldDecl.moved_embeddedName? relocation.span (.mk span names starred type)
      simp only [Syntax.FieldDecl.moved] at sameName
      cases names with
      | nil =>
          simp only [List.map_nil, List.isEmpty_nil, ↓reduceIte] at sameName ⊢
          rw [sameName]
          cases (FieldDecl.mk span [] starred type).embeddedName? with
          | none => exact congruence.fail _ _
          | some name => exact others _
      | cons name names =>
          simp only [List.map_cons, List.isEmpty_cons, Bool.false_eq_true, ↓reduceIte,
            List.map_map, Function.comp_def, Syntax.Ident.moved_text]
          exact others _

/-- The types of a parameter list. -/
theorem lowerParamListWith
    (file : FileScope) :
    ∀ params : ParamList,
      congruence.Related Eq
        (before.lowerParamListWith left file params)
        (after.lowerParamListWith right (relocation.file file) (params.moved relocation.span))
  | .absent => congruence.answer rfl
  | .list span params => by
      simp only [Scope.lowerParamListWith, Syntax.ParamList.moved, Syntax.any_name_paramsMoved]
      exact lowerParamsWith file span (relocation.span span) _ 0 params

/-- The types of parameter entries. -/
theorem lowerParamsWith
    (file : FileScope)
    (list list' : Syntax.Span)
    (grouped : Bool)
    (pending : Nat) :
    ∀ params : List Param,
      congruence.Related Eq
        (before.lowerParamsWith left file list grouped pending params)
        (after.lowerParamsWith right (relocation.file file) list' grouped pending
          (Syntax.paramsMoved relocation.span params))
  | [] => by
      simp only [Scope.lowerParamsWith, Syntax.paramsMoved]
      split
      · exact congruence.answer rfl
      · exact congruence.fail _ _
  | .mk _ name variadic type :: rest => by
      simp only [Scope.lowerParamsWith, Syntax.paramsMoved, Option.isNone_map]
      split
      · exact lowerParamsWith file list list' grouped (pending + 1) rest
      · apply congruence.sequence (lowerTypeWith file type)
        intro lowered
        exact congruence.sequence (lowerParamsWith file list list' grouped 0 rest)
          fun ⟨_, _⟩ => congruence.answer rfl

/-- The result types of a function. -/
theorem lowerResultWith
    (file : FileScope) :
    ∀ result : Syntax.Result,
      congruence.Related Eq
        (before.lowerResultWith left file result)
        (after.lowerResultWith right (relocation.file file) (result.moved relocation.span))
  | .absent => congruence.answer rfl
  | .single type =>
      congruence.map (lowerTypeWith file type) fun _ _ same => congrArg (fun type => [type]) same
  | .list params => by
      refine congruence.sequence (lowerParamListWith file params) fun ⟨types, variadic⟩ => ?_
      exact congruence.answer rfl

/-- The methods of interface elements. -/
theorem interfaceMethodsWith
    (file : FileScope)
    (explicit : List String)
    (own : InterfaceMethods) :
    ∀ elems : List Elem,
      congruence.Related Eq
        (before.interfaceMethodsWith left file explicit own elems)
        (after.interfaceMethodsWith right (relocation.file file) explicit own
          (Syntax.elemsMoved relocation.span elems))
  | [] => congruence.answer rfl
  | .method _ none _ _ :: _ => congruence.fail _ _
  | .method _ (some name) params result :: rest => by
      simp only [Scope.interfaceMethodsWith, Syntax.elemsMoved, Option.map_some,
        Syntax.Ident.moved_text, Scope.methodName, moves.package]
      split
      · exact interfaceMethodsWith file explicit own rest
      · split
        · exact congruence.fail _ _
        · apply congruence.sequence (lowerParamListWith file params)
          intro ⟨types, variadic⟩
          apply congruence.sequence (lowerResultWith file result)
          intro results
          exact congruence.sequence
            (congruence.ofExcept (Scope.toOption_addMethod _ _ own.methods _))
            fun methods =>
              interfaceMethodsWith file (name.text :: explicit) { own with methods } rest
  | .embedded span type :: rest => by
      have joined (inner : InterfaceMethods) :=
        congruence.sequence
          (congruence.ofExcept (Scope.toOption_embed (file.position span.start)
            ((relocation.file file).position (relocation.span span).start) own inner))
          fun joined => interfaceMethodsWith file explicit joined rest
      have embedded :=
        congruence.sequence
          (embeddedMethodsWith file (file.position span.start)
            ((relocation.file file).position (relocation.span span).start) type)
          joined
      cases type with
      | missing _ => exact congruence.fail _ _
      | _ => exact embedded
  | .typeSet _ :: rest => interfaceMethodsWith file explicit { own with isConstraint := true } rest

/-- What an embedded element contributes to an interface. -/
theorem embeddedMethodsWith
    (file : FileScope)
    (position position' : Position) :
    ∀ expr : TypeExpr,
      congruence.Related Eq
        (before.embeddedMethodsWith left file position expr)
        (after.embeddedMethodsWith right (relocation.file file) position'
          (expr.moved relocation.span))
  | .missing _ => congruence.fail _ _
  | .paren _ inner => embeddedMethodsWith file position position' inner
  | .interface _ elems => interfaceMethodsWith file [] {} elems
  | .name span qualifier ident hasArgs _ => by
      simp only [Scope.embeddedMethodsWith, Syntax.TypeExpr.moved]
      split
      · exact congruence.answer rfl
      · refine congruence.andThen
          (congruence.plainNameUnderlying moves agreement file span (relocation.span span)
            qualifier ident) ?_
        intro underlying moved underlies
        exact congruence.contribution file span _ position position' underlies
  | .pointer _ _ => congruence.answer rfl
  | .slice _ _ => congruence.answer rfl
  | .array _ _ _ => congruence.answer rfl
  | .map _ _ _ => congruence.answer rfl
  | .chan _ _ _ => congruence.answer rfl
  | .func _ _ _ => congruence.answer rfl
  | .struct _ _ => congruence.answer rfl

end

/-- What is underneath a type expression that is neither a name nor written out. -/
theorem lowered
    (file : FileScope)
    (expr : TypeExpr) :
    congruence.Related relocation.Underlies
      ((before.lowerTypeWith left file expr).andThen fun _ => .answer .other)
      ((after.lowerTypeWith right (relocation.file file) (expr.moved relocation.span)).andThen
        fun _ => .answer .other) :=
  congruence.map (congruence.lowerTypeWith moves agreement file expr) fun _ _ _ => rfl

/-- What is underneath a type expression. -/
theorem underlyingWith
    (file : FileScope) :
    ∀ expr : TypeExpr,
      congruence.Related relocation.Underlies
        (before.underlyingWith left file expr)
        (after.underlyingWith right (relocation.file file) (expr.moved relocation.span))
  | .paren _ inner => underlyingWith file inner
  | .interface _ elems =>
      congruence.map (congruence.interfaceMethodsWith moves agreement file [] {} elems)
        fun _ _ same => same ▸ rfl
  | .struct _ fields =>
      congruence.map (congruence.lowerFieldsWith moves agreement file fields) fun _ _ _ => rfl
  | .name span qualifier ident hasArgs args => by
      have type :=
        congruence.lowered moves agreement file (.name span qualifier ident hasArgs args)
      simp only [Scope.underlyingWith, Syntax.TypeExpr.moved, Option.isNone_map] at type ⊢
      split
      · exact type
      · exact congruence.plainNameUnderlying moves agreement file span _ qualifier ident
  | .missing start => congruence.lowered moves agreement file (.missing start)
  | .pointer span elem => congruence.lowered moves agreement file (.pointer span elem)
  | .slice span elem => congruence.lowered moves agreement file (.slice span elem)
  | .array span length elem => congruence.lowered moves agreement file (.array span length elem)
  | .map span key value => congruence.lowered moves agreement file (.map span key value)
  | .chan span direction elem => congruence.lowered moves agreement file (.chan span direction elem)
  | .func span params result => congruence.lowered moves agreement file (.func span params result)

end Lowering

section InPlace

variable
  (congruence : Congruence)
  {scope : Scope}
  {left right : Meaning}
  (agreement : congruence.Agreement .stay scope left right)
  (file : FileScope)

include agreement

/-- The type of a type expression that stays in its place. -/
theorem lowerTypeWith_stay
    (expr : TypeExpr) :
    congruence.Related Eq
      (scope.lowerTypeWith left file expr)
      (scope.lowerTypeWith right file expr) := by
  simpa only [Relocation.stay_file, Relocation.stay_span, expr.moved_id] using
    congruence.lowerTypeWith (.stay scope) agreement file expr

/-- The types of a parameter list that stays in its place. -/
theorem lowerParamListWith_stay
    (params : ParamList) :
    congruence.Related Eq
      (scope.lowerParamListWith left file params)
      (scope.lowerParamListWith right file params) := by
  simpa only [Relocation.stay_file, Relocation.stay_span, params.moved_id] using
    congruence.lowerParamListWith (.stay scope) agreement file params

/-- The result types of a function that stays in its place. -/
theorem lowerResultWith_stay
    (result : Syntax.Result) :
    congruence.Related Eq
      (scope.lowerResultWith left file result)
      (scope.lowerResultWith right file result) := by
  simpa only [Relocation.stay_file, Relocation.stay_span, result.moved_id] using
    congruence.lowerResultWith (.stay scope) agreement file result

/-- The methods of interface elements that stay in their places. -/
theorem interfaceMethodsWith_stay
    (explicit : List String)
    (own : InterfaceMethods)
    (elems : List Elem) :
    congruence.Related Eq
      (scope.interfaceMethodsWith left file explicit own elems)
      (scope.interfaceMethodsWith right file explicit own elems) := by
  simpa only [Relocation.stay_file, Relocation.stay_span, Syntax.elemsMoved_id] using
    congruence.interfaceMethodsWith (.stay scope) agreement file explicit own elems

/-- What an embedded element that stays in its place contributes to an interface. -/
theorem embeddedMethodsWith_stay
    (position : Position)
    (expr : TypeExpr) :
    congruence.Related Eq
      (scope.embeddedMethodsWith left file position expr)
      (scope.embeddedMethodsWith right file position expr) := by
  simpa only [Relocation.stay_file, Relocation.stay_span, expr.moved_id] using
    congruence.embeddedMethodsWith (.stay scope) agreement file position position expr

/-- What is underneath a name without type arguments that stays in its place. -/
theorem plainNameUnderlying_stay
    (span : Syntax.Span)
    (qualifier ident : Option Ident) :
    congruence.Related Eq
      (scope.plainNameUnderlying left file span qualifier ident)
      (scope.plainNameUnderlying right file span qualifier ident) := by
  have same (name : Option Ident) : name.map (Ident.moved id) = name := by
    cases name <;> rfl
  simpa only [Relocation.stay_file, Relocation.stay_span, same, Relocation.underlies_stay] using
    congruence.plainNameUnderlying (.stay scope) agreement file span span qualifier ident

/-- What is underneath a type expression that stays in its place. -/
theorem underlyingWith_stay
    (expr : TypeExpr) :
    congruence.Related Eq
      (scope.underlyingWith left file expr)
      (scope.underlyingWith right file expr) := by
  simpa only [Relocation.stay_file, Relocation.stay_span, expr.moved_id,
    Relocation.underlies_stay] using
    congruence.underlyingWith (.stay scope) agreement file expr

end InPlace

/-- Related meanings of the declared names of one package. -/
theorem Agreement.inPlace
    {congruence : Congruence}
    {scope : Scope}
    {left right : Meaning}
    (typeOfAlias :
      ∀ name decl, scope.lookup? name = some decl → decl.spec.isAlias = true →
        congruence.Related Eq (left.typeOfAlias decl) (right.typeOfAlias decl))
    (underlying :
      ∀ name decl, scope.lookup? name = some decl →
        congruence.Related Eq (left.underlying decl) (right.underlying decl)) :
    congruence.Agreement .stay scope left right where
  typeOfAlias name decl found isAlias := by
    simpa only [Relocation.stay_decl] using typeOfAlias name decl found isAlias
  underlying name decl found := by
    simpa only [Relocation.stay_decl, Relocation.underlies_stay] using underlying name decl found

end Congruence

end Implementers
