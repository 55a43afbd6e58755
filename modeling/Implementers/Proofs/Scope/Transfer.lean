import Implementers.Proofs.Renaming
import Implementers.Proofs.Scope.InPlace

/-!
# Packages transferred to other units and files

A package may be resolved as part of another unit, from files with other paths, or from texts in
which its declarations stand at other offsets.  A transfer says what becomes of package identities,
files and offsets.  Resolving the transferred package gives the transferred answer, or an error of
the same kind: the two resolutions stay abreast, and what the one remembers the other remembers in
transferred form.  This module shows it for every way to build a resolution and for the lowering of
type expressions.
-/

namespace Implementers

open Syntax (Ident TypeExpr ParamList Param FieldDecl FuncDecl Elem Span)

/-- The kinds of errors of a unit, whatever they say and wherever they point. -/
inductive UnitError.Kind where
  | unreadable
  | invalidSource
  | undefined
  | redeclared
  | recursiveType
  | duplicateMethod
  | invalidReceiver
  deriving Repr, DecidableEq

/-- The kind of an error. -/
def UnitError.kind : UnitError → UnitError.Kind
  | unreadable _ _ => .unreadable
  | invalidSource _ _ => .invalidSource
  | undefined _ _ => .undefined
  | redeclared _ _ _ => .redeclared
  | recursiveType _ _ => .recursiveType
  | duplicateMethod _ _ => .duplicateMethod
  | invalidReceiver _ _ => .invalidReceiver

/-- Two results that agree, or two errors of one kind. -/
inductive SameOutcome
    (agree : α → β → Prop) :
    Except UnitError α → Except UnitError β → Prop where
  | ok
      {value : α}
      {other : β}
      (agrees : agree value other) :
      SameOutcome agree (.ok value) (.ok other)
  | error
      {left right : UnitError}
      (sameKind : left.kind = right.kind) :
      SameOutcome agree (.error left) (.error right)

/-- Steps that agree may follow outcomes that do. -/
theorem SameOutcome.bind
    {agree : α → β → Prop}
    {agreeNext : γ → δ → Prop}
    {left : Except UnitError α}
    {right : Except UnitError β}
    {leftNext : α → Except UnitError γ}
    {rightNext : β → Except UnitError δ}
    (first : SameOutcome agree left right)
    (next : ∀ value other, agree value other →
      SameOutcome agreeNext (leftNext value) (rightNext other)) :
    SameOutcome agreeNext (left.bind leftNext) (right.bind rightNext) := by
  cases first with
  | ok agrees => exact next _ _ agrees
  | error sameKind => exact .error sameKind

/-- Outcomes that agree are both successes or both failures. -/
theorem SameOutcome.isOk_iff
    {agree : α → β → Prop}
    {left : Except UnitError α}
    {right : Except UnitError β}
    (outcome : SameOutcome agree left right) :
    left.isOk ↔ right.isOk := by
  cases outcome <;> simp [Except.isOk, Except.toBool]

/-- The methods of an interface under new identities of packages. -/
def InterfaceMethods.renamed
    (rename : Renaming)
    (interface : InterfaceMethods) :
    InterfaceMethods :=
  { interface with methods := interface.methods.renamed rename }

/-- What becomes of the identities, the files and the offsets of a package. -/
structure Transfer where
  rename : Renaming
  /-- The new offset of an offset in the file of a given index. -/
  shift : Nat → Nat → Nat
  /-- The offsets in the file of a given index that stay in their order. -/
  regular : Nat → Nat → Prop
  ordered :
    ∀ {index left right}, regular index left → regular index right →
      (shift index left ≤ shift index right ↔ left ≤ right)
  file : FileScope → FileScope
  index : ∀ before, (file before).index = before.index
  imports : ∀ before, (file before).imports = before.imports
  dotImports : ∀ before, (file before).dotImports = before.dotImports

namespace Transfer

/-- The new span of a span in a file. -/
def span
    (transfer : Transfer)
    (file : FileScope)
    (before : Span) :
    Span :=
  ⟨transfer.shift file.index before.start, transfer.shift file.index before.stop⟩

/-- A declared type where it is transferred to. -/
def decl
    (transfer : Transfer)
    (before : TypeDecl) :
    TypeDecl :=
  { before with
    file := transfer.file before.file
    spec := before.spec.moved (transfer.span before.file)
    offset := transfer.shift before.file.index before.offset }

/-- What is underneath a name where it is transferred to. -/
def underlying
    (transfer : Transfer) :
    Underlying → Underlying
  | .interface methods => .interface (methods.renamed transfer.rename)
  | .struct file fields =>
      .struct (transfer.file file) (Syntax.fieldsMoved (transfer.span file) fields)
  | .imported path => .imported path
  | .other => .other

/-- The path of an import name stays the same. -/
@[simp] theorem importPath?_file
    (transfer : Transfer)
    (file : FileScope)
    (name : String) :
    (transfer.file file).importPath? name = file.importPath? name := by
  simp only [FileScope.importPath?, transfer.imports]

@[simp] theorem decl_name
    (transfer : Transfer)
    (decl : TypeDecl) :
    (transfer.decl decl).name = decl.name :=
  rfl

@[simp] theorem decl_isAlias
    (transfer : Transfer)
    (decl : TypeDecl) :
    (transfer.decl decl).spec.isAlias = decl.spec.isAlias :=
  rfl

@[simp] theorem decl_generic
    (transfer : Transfer)
    (decl : TypeDecl) :
    (transfer.decl decl).spec.generic = decl.spec.generic :=
  rfl

@[simp] theorem decl_type
    (transfer : Transfer)
    (decl : TypeDecl) :
    (transfer.decl decl).spec.type = decl.spec.type.moved (transfer.span decl.file) :=
  rfl

/-- The error that a declaration leads back to itself is of one kind wherever it stands. -/
theorem kind_recursive
    (transfer : Transfer)
    (decl : TypeDecl) :
    decl.recursive.kind = (transfer.decl decl).recursive.kind :=
  rfl

@[simp] theorem decl_file
    (transfer : Transfer)
    (decl : TypeDecl) :
    (transfer.decl decl).file = transfer.file decl.file :=
  rfl

@[simp] theorem underlying_isInterface
    (transfer : Transfer)
    (before : Underlying) :
    (transfer.underlying before).isInterface = before.isInterface := by
  cases before <;> rfl

/-- Whether the name of a receiver, if there is one, stands at a regular offset of a file. -/
def RegularReceiver
    (transfer : Transfer)
    (entry : FileScope × FuncDecl) :
    Prop :=
  ∀ receiver ∈ entry.2.receiver, ∀ param ∈ receiver.param, ∀ name ∈ param.name,
    transfer.regular entry.1.index name.span.start

/-- A package whose declarations are those of another one where they are transferred to. -/
structure Moves
    (transfer : Transfer)
    (before after : Scope) :
    Prop where
  package : after.package = transfer.rename.package before.package
  decls : after.decls = before.decls.map transfer.decl
  funcs :
    after.funcDecls =
      before.funcDecls.map fun entry =>
        (transfer.file entry.1, entry.2.moved (transfer.span entry.1))
  regularDecls : ∀ decl ∈ before.decls, transfer.regular decl.file.index decl.offset
  regularReceivers : ∀ entry ∈ before.funcDecls, transfer.RegularReceiver entry

namespace Moves

variable
  {transfer : Transfer}
  {before after : Scope}

/-- The transferred package declares as many types. -/
theorem size
    (moves : transfer.Moves before after) :
    after.decls.length = before.decls.length := by
  rw [moves.decls, List.length_map]

/-- A name is declared where its declaration is transferred to. -/
theorem lookup
    (moves : transfer.Moves before after)
    (name : String) :
    after.lookup? name = (before.lookup? name).map transfer.decl := by
  simp only [Scope.lookup?, Scope.findDecl?, moves.decls, List.find?_map, Function.comp_def,
    decl_name]

/-- A name stands for the transferred method name. -/
theorem methodName
    (moves : transfer.Moves before after)
    (name : String) :
    after.methodName name = (before.methodName name).renamed transfer.rename := by
  simp only [Scope.methodName, moves.package, MethodName.renamed_inPackage]

/-- The methods of the predeclared interface are the transferred ones. -/
theorem errorMethods
    (moves : transfer.Moves before after) :
    after.errorMethods = before.errorMethods.renamed transfer.rename := by
  simp only [Scope.errorMethods, moves.methodName, MethodSet.renamed_insert,
    MethodSet.renamed_empty]
  rfl

/-- Names and aliases lead to where declarations are transferred to. -/
theorem retraces
    (moves : transfer.Moves before after) :
    before.Retraces transfer.decl after where
  size := moves.size
  lookup := moves.lookup
  name _ := rfl
  isAlias _ := rfl
  type _ := ⟨_, rfl⟩

end Moves

/-! ## Resolutions carried along -/

/-- Two resolutions of which the second one does in the new place what the first one does. -/
abbrev Carries
    (transfer : Transfer)
    (agree : α → β → Prop)
    (left : Resolve α)
    (right : Resolve β) :
    Prop :=
  Implementers.Carries transfer.underlying (fun error other => error.kind = other.kind) agree
    left right

/-- Two resolutions of which the second one answers what becomes of the first one's answer. -/
abbrev Gives
    (transfer : Transfer)
    (become : α → β)
    (left : Resolve α)
    (right : Resolve β) :
    Prop :=
  transfer.Carries (fun value other => become value = other) left right

namespace Carries

variable
  {transfer : Transfer}

/-- Answers that are known already. -/
theorem ofExcept
    {agree : α → β → Prop}
    {left : Except UnitError α}
    {right : Except UnitError β}
    (outcome : SameOutcome agree left right) :
    transfer.Carries agree (Resolve.ofExcept left) (Resolve.ofExcept right) := by
  cases outcome with
  | ok agrees => exact .answer agrees
  | error sameKind => exact .fail sameKind

end Carries

/-! ## Lowering -/

/-- A method can be added to a set under new identities exactly when it could be before. -/
theorem addMethod
    (rename : Renaming)
    (position position' : Position)
    (set : MethodSet)
    (method : Method) :
    SameOutcome (fun left right => left.renamed rename = right)
      (Scope.addMethod position set method)
      (Scope.addMethod position' (set.renamed rename) (method.renamed rename)) := by
  simp only [Scope.addMethod, Method.renamed_name, Method.renamed_signature,
    MethodSet.renamed_get?]
  cases set.get? method.name with
  | none => exact .ok (MethodSet.renamed_insert rename _ _ _)
  | some existing =>
      simp only [Option.map_some, Signature.renamed_same]
      split
      · exact .ok rfl
      · exact .error rfl

/-- Methods can be added to a set under new identities exactly when they could be before. -/
theorem addMethods
    (rename : Renaming)
    (position position' : Position)
    (methods : List Method) :
    ∀ set : MethodSet,
      SameOutcome (fun left right => left.renamed rename = right)
        (Scope.addMethods position set methods)
        (Scope.addMethods position' (set.renamed rename)
          (methods.map (Method.renamed rename))) := by
  induction methods with
  | nil => exact fun _ => .ok rfl
  | cons method rest inductionHypothesis =>
      intro set
      have first := addMethod rename position position' set method
      simp only [Scope.addMethods, List.map_cons]
      generalize Scope.addMethod position set method = left at first ⊢
      generalize Scope.addMethod position' (set.renamed rename) (method.renamed rename) = right
        at first ⊢
      cases first with
      | ok added => subst added; exact inductionHypothesis _
      | error sameKind => exact .error sameKind

/-- An interface can be embedded under new identities exactly when it could be before. -/
theorem embed
    (rename : Renaming)
    (position position' : Position)
    (own inner : InterfaceMethods) :
    SameOutcome (fun left right => left.renamed rename = right)
      (Scope.embed position own inner)
      (Scope.embed position' (own.renamed rename) (inner.renamed rename)) := by
  have added := addMethods rename position position' inner.methods.methods own.methods
  simp only [Scope.embed, InterfaceMethods.renamed, MethodSet.renamed_methods]
  generalize Scope.addMethods position own.methods inner.methods.methods = left at added ⊢
  generalize
    Scope.addMethods position' (own.methods.renamed rename)
      (inner.methods.methods.map (Method.renamed rename)) = right
    at added ⊢
  cases added with
  | ok same => subst same; exact .ok rfl
  | error sameKind => exact .error sameKind

/-- The declared names of two packages mean what becomes of each other. -/
structure Agreement
    (transfer : Transfer)
    (scope : Scope)
    (left right : Meaning) :
    Prop where
  typeOfAlias :
    ∀ name decl, scope.lookup? name = some decl → decl.spec.isAlias = true →
      transfer.Gives (Ty.renamed transfer.rename)
        (left.typeOfAlias decl) (right.typeOfAlias (transfer.decl decl))
  underlying :
    ∀ name decl, scope.lookup? name = some decl →
      transfer.Gives transfer.underlying
        (left.underlying decl) (right.underlying (transfer.decl decl))

section Lowering

variable
  {transfer : Transfer}
  {before after : Scope}
  {left right : Meaning}

/-- The type of an undeclared name. -/
theorem undeclaredType
    (file : FileScope)
    (ident : Ident)
    (args : List Ty) :
    transfer.Gives (Ty.renamed transfer.rename)
      (Scope.undeclaredType file ident args)
      (Scope.undeclaredType (transfer.file file) (ident.moved (transfer.span file))
        (Ty.listRenamed transfer.rename args)) := by
  unfold Scope.undeclaredType
  simp only [Syntax.Ident.moved_text, transfer.dotImports]
  split
  · exact .answer rfl
  · exact .answer rfl
  · exact .answer rfl
  · split
    · exact .answer rfl
    · cases file.dotImports.head? with
      | some path => exact .answer rfl
      | none => exact .fail rfl

/-- What an embedded name contributes to an interface. -/
theorem contribution
    (file : FileScope)
    (span span' : Span)
    (position position' : Position)
    (underlying : Underlying) :
    transfer.Gives (InterfaceMethods.renamed transfer.rename)
      (Scope.contribution file span position underlying)
      (Scope.contribution (transfer.file file) span' position'
        (transfer.underlying underlying)) := by
  cases underlying with
  | interface methods => exact .answer rfl
  | struct _ _ => exact .answer rfl
  | imported path =>
      simp only [Scope.contribution, underlying]
      exact (Carries.warn rfl _ _).sequence fun _ => .answer rfl
  | other => exact .answer rfl

variable
  (moves : transfer.Moves before after)
  (agreement : transfer.Agreement before left right)

include moves

/-- What is underneath an undeclared name. -/
theorem undeclaredUnderlying
    (file : FileScope)
    (ident : Ident) :
    transfer.Gives transfer.underlying
      (before.undeclaredUnderlying file ident)
      (after.undeclaredUnderlying (transfer.file file) (ident.moved (transfer.span file))) := by
  unfold Scope.undeclaredUnderlying
  simp only [Syntax.Ident.moved_text, transfer.dotImports, moves.errorMethods]
  split
  · exact .answer rfl
  · exact .answer rfl
  · exact .answer rfl
  · split
    · exact .answer rfl
    · cases file.dotImports.head? with
      | some path => exact .answer rfl
      | none => exact .fail rfl

include agreement

/-- The type of a name. -/
theorem namedType
    (file : FileScope)
    (qualifier : Option Ident)
    (ident : Ident)
    (args : List Ty) :
    transfer.Gives (Ty.renamed transfer.rename)
      (before.namedType left file qualifier ident args)
      (after.namedType right (transfer.file file)
        (qualifier.map (Ident.moved (transfer.span file)))
        (ident.moved (transfer.span file)) (Ty.listRenamed transfer.rename args)) := by
  cases qualifier with
  | some package =>
      simp only [Scope.namedType, Option.map_some, Syntax.Ident.moved_text, importPath?_file]
      cases file.importPath? package.text with
      | some path => exact .answer rfl
      | none => exact .fail rfl
  | none =>
      simp only [Scope.namedType, Option.map_none, Syntax.Ident.moved_text, moves.lookup,
        moves.package]
      cases found : before.lookup? ident.text with
      | some decl =>
          exact Carries.branch Iff.rfl (fun isAlias => agreement.typeOfAlias _ decl found isAlias)
            fun _ => .answer rfl
      | none => exact undeclaredType file ident args

/-- What is underneath a name without type arguments. -/
theorem plainNameUnderlying
    (file : FileScope)
    (span span' : Span)
    (qualifier ident : Option Ident) :
    transfer.Gives transfer.underlying
      (before.plainNameUnderlying left file span qualifier ident)
      (after.plainNameUnderlying right (transfer.file file) span'
        (qualifier.map (Ident.moved (transfer.span file)))
        (ident.map (Ident.moved (transfer.span file)))) := by
  cases ident with
  | none => exact .fail rfl
  | some ident =>
      cases qualifier with
      | some package =>
          simp only [Scope.plainNameUnderlying, Option.map_some, Syntax.Ident.moved_text,
            importPath?_file]
          cases file.importPath? package.text with
          | some path => exact .answer rfl
          | none => exact .fail rfl
      | none =>
          simp only [Scope.plainNameUnderlying, Option.map_some, Option.map_none,
            Syntax.Ident.moved_text, moves.lookup]
          cases found : before.lookup? ident.text with
          | some decl => exact agreement.underlying _ decl found
          | none => exact undeclaredUnderlying moves file ident

set_option linter.unusedSectionVars false in
mutual

/-- The type of a type expression. -/
theorem lowerTypeWith
    (file : FileScope) :
    ∀ expr : TypeExpr,
      transfer.Gives (Ty.renamed transfer.rename)
        (before.lowerTypeWith left file expr)
        (after.lowerTypeWith right (transfer.file file) (expr.moved (transfer.span file)))
  | .missing _ => .fail rfl
  | .name _ qualifier none _ _ => .fail rfl
  | .name _ qualifier (some ident) _ args => by
      apply (lowerTypesWith file args).sequence
      intro lowered
      exact namedType moves agreement file qualifier ident lowered
  | .pointer _ elem => (lowerTypeWith file elem).map fun _ => rfl
  | .slice _ elem => (lowerTypeWith file elem).map fun _ => rfl
  | .array _ _ elem => (lowerTypeWith file elem).map fun _ => rfl
  | .map _ key value => by
      apply (lowerTypeWith file key).sequence
      intro loweredKey
      exact (lowerTypeWith file value).map fun _ => rfl
  | .chan _ _ elem => (lowerTypeWith file elem).map fun _ => rfl
  | .func _ params result => by
      apply (lowerParamListWith file params).sequence
      intro ⟨types, variadic⟩
      exact (lowerResultWith file result).map fun _ => rfl
  | .struct _ fields => (lowerFieldsWith file fields).map fun _ => rfl
  | .interface _ elems =>
      (interfaceMethodsWith file [] {} elems).map fun _ => rfl
  | .paren _ inner => lowerTypeWith file inner

/-- The types of type expressions. -/
theorem lowerTypesWith
    (file : FileScope) :
    ∀ types : List TypeExpr,
      transfer.Gives (Ty.listRenamed transfer.rename)
        (before.lowerTypesWith left file types)
        (after.lowerTypesWith right (transfer.file file)
          (Syntax.typesMoved (transfer.span file) types))
  | [] => .answer rfl
  | first :: rest => by
      apply (lowerTypeWith file first).sequence
      intro lowered
      exact (lowerTypesWith file rest).map fun _ => rfl

/-- The fields that field declarations make. -/
theorem lowerFieldsWith
    (file : FileScope) :
    ∀ fields : List FieldDecl,
      transfer.Gives (StructField.listRenamed transfer.rename)
        (before.lowerFieldsWith left file fields)
        (after.lowerFieldsWith right (transfer.file file)
          (Syntax.fieldsMoved (transfer.span file) fields))
  | [] => .answer rfl
  | .mk span names starred type :: rest => by
      apply (lowerTypeWith file type).sequence
      intro lowered
      have others (declared : List StructField) :
          transfer.Gives (StructField.listRenamed transfer.rename)
            ((before.lowerFieldsWith left file rest).andThen fun others =>
              .answer (declared ++ others))
            ((after.lowerFieldsWith right (transfer.file file)
                (Syntax.fieldsMoved (transfer.span file) rest)).andThen fun others =>
              .answer (StructField.listRenamed transfer.rename declared ++ others)) :=
        (lowerFieldsWith file rest).map fun others => by
          simp only [StructField.listRenamed_eq_map, List.map_append]
      have sameName :=
        Syntax.FieldDecl.moved_embeddedName? (transfer.span file) (.mk span names starred type)
      simp only [Syntax.FieldDecl.moved] at sameName
      cases names with
      | nil =>
          simp only [List.map_nil, List.isEmpty_nil, ↓reduceIte] at sameName ⊢
          rw [sameName]
          cases (FieldDecl.mk span [] starred type).embeddedName? with
          | none => exact .fail rfl
          | some name =>
              cases starred <;> exact others _
      | cons name names =>
          have declared :
              StructField.listRenamed transfer.rename
                  ((name :: names).map fun name => StructField.mk name.text lowered false) =
                (name :: names).map fun name =>
                  StructField.mk name.text (lowered.renamed transfer.rename) false := by
            simp only [StructField.listRenamed_eq_map, List.map_map, Function.comp_def,
              StructField.renamed]
          have rest := others ((name :: names).map fun name => StructField.mk name.text lowered false)
          rw [declared] at rest
          simp only [List.map_cons, List.isEmpty_cons, Bool.false_eq_true, ↓reduceIte,
            List.map_map, Function.comp_def, Syntax.Ident.moved_text] at rest ⊢
          exact rest

/-- The types of a parameter list. -/
theorem lowerParamListWith
    (file : FileScope) :
    ∀ params : ParamList,
      transfer.Gives (Prod.map (Ty.listRenamed transfer.rename) id)
        (before.lowerParamListWith left file params)
        (after.lowerParamListWith right (transfer.file file) (params.moved (transfer.span file)))
  | .absent => .answer rfl
  | .list span params => by
      simp only [Scope.lowerParamListWith, Syntax.ParamList.moved, Syntax.any_name_paramsMoved]
      exact lowerParamsWith file span (transfer.span file span) _ 0 params

/-- The types of parameter entries. -/
theorem lowerParamsWith
    (file : FileScope)
    (list list' : Span)
    (grouped : Bool)
    (pending : Nat) :
    ∀ params : List Param,
      transfer.Gives (Prod.map (Ty.listRenamed transfer.rename) id)
        (before.lowerParamsWith left file list grouped pending params)
        (after.lowerParamsWith right (transfer.file file) list' grouped pending
          (Syntax.paramsMoved (transfer.span file) params))
  | [] => by
      simp only [Scope.lowerParamsWith, Syntax.paramsMoved]
      split
      · exact .answer rfl
      · exact .fail rfl
  | .mk _ name variadic type :: rest => by
      simp only [Scope.lowerParamsWith, Syntax.paramsMoved, Option.isNone_map]
      split
      · exact lowerParamsWith file list list' grouped (pending + 1) rest
      · apply (lowerTypeWith file type).sequence
        intro lowered
        apply (lowerParamsWith file list list' grouped 0 rest).sequence
        intro ⟨others, _⟩
        apply Carries.answer
        cases variadic <;>
          simp [Ty.listRenamed_eq_map, Ty.renamed]

/-- The result types of a function. -/
theorem lowerResultWith
    (file : FileScope) :
    ∀ result : Syntax.Result,
      transfer.Gives (Ty.listRenamed transfer.rename)
        (before.lowerResultWith left file result)
        (after.lowerResultWith right (transfer.file file) (result.moved (transfer.span file)))
  | .absent => .answer rfl
  | .single type => (lowerTypeWith file type).map fun _ => rfl
  | .list params => by
      apply (lowerParamListWith file params).sequence
      intro ⟨types, variadic⟩
      exact .answer rfl

/-- The methods of interface elements. -/
theorem interfaceMethodsWith
    (file : FileScope)
    (explicit : List String)
    (own : InterfaceMethods) :
    ∀ elems : List Elem,
      transfer.Gives (InterfaceMethods.renamed transfer.rename)
        (before.interfaceMethodsWith left file explicit own elems)
        (after.interfaceMethodsWith right (transfer.file file) explicit
          (own.renamed transfer.rename) (Syntax.elemsMoved (transfer.span file) elems))
  | [] => .answer rfl
  | .method _ none _ _ :: _ => .fail rfl
  | .method _ (some name) params result :: rest => by
      simp only [Scope.interfaceMethodsWith, Syntax.elemsMoved, Option.map_some,
        Syntax.Ident.moved_text, moves.methodName]
      split
      · exact interfaceMethodsWith file explicit own rest
      · split
        · exact .fail rfl
        · apply (lowerParamListWith file params).sequence
          intro ⟨types, variadic⟩
          apply (lowerResultWith file result).sequence
          intro results
          exact (Carries.ofExcept (addMethod transfer.rename _ _ own.methods _)).sequence
            fun methods =>
              interfaceMethodsWith file (name.text :: explicit) { own with methods } rest
  | .embedded span type :: rest => by
      have embedded :
          transfer.Gives (InterfaceMethods.renamed transfer.rename)
            ((before.embeddedMethodsWith left file (file.position span.start) type).andThen
              fun inner =>
                (Resolve.ofExcept (Scope.embed (file.position span.start) own inner)).andThen
                  fun joined => before.interfaceMethodsWith left file explicit joined rest)
            ((after.embeddedMethodsWith right (transfer.file file)
                ((transfer.file file).position (transfer.span file span).start)
                (type.moved (transfer.span file))).andThen
              fun inner =>
                (Resolve.ofExcept (Scope.embed
                    ((transfer.file file).position (transfer.span file span).start)
                    (own.renamed transfer.rename) inner)).andThen
                  fun joined => after.interfaceMethodsWith right (transfer.file file) explicit
                    joined (Syntax.elemsMoved (transfer.span file) rest)) := by
        apply (embeddedMethodsWith file _ _ type).sequence
        intro inner
        apply (Carries.ofExcept (embed transfer.rename _ _ own inner)).sequence
        intro joined
        exact interfaceMethodsWith file explicit joined rest
      cases type with
      | missing _ => exact .fail rfl
      | _ => exact embedded
  | .typeSet _ :: rest => interfaceMethodsWith file explicit { own with isConstraint := true } rest

/-- What an embedded element contributes to an interface. -/
theorem embeddedMethodsWith
    (file : FileScope)
    (position position' : Position) :
    ∀ expr : TypeExpr,
      transfer.Gives (InterfaceMethods.renamed transfer.rename)
        (before.embeddedMethodsWith left file position expr)
        (after.embeddedMethodsWith right (transfer.file file) position'
          (expr.moved (transfer.span file)))
  | .missing _ => .fail rfl
  | .paren _ inner => embeddedMethodsWith file position position' inner
  | .interface _ elems => interfaceMethodsWith file [] {} elems
  | .name span qualifier ident hasArgs _ => by
      simp only [Scope.embeddedMethodsWith, Syntax.TypeExpr.moved]
      split
      · exact .answer rfl
      · apply (plainNameUnderlying moves agreement file span (transfer.span file span)
          qualifier ident).sequence
        intro underlying
        exact contribution file span _ position position' underlying
  | .pointer _ _ => .answer rfl
  | .slice _ _ => .answer rfl
  | .array _ _ _ => .answer rfl
  | .map _ _ _ => .answer rfl
  | .chan _ _ _ => .answer rfl
  | .func _ _ _ => .answer rfl
  | .struct _ _ => .answer rfl

end

/-- What is underneath a type expression that is neither a name nor written out. -/
theorem lowered
    (file : FileScope)
    (expr : TypeExpr) :
    transfer.Gives transfer.underlying
      ((before.lowerTypeWith left file expr).andThen fun _ => .answer .other)
      ((after.lowerTypeWith right (transfer.file file) (expr.moved (transfer.span file))).andThen
        fun _ => .answer .other) :=
  (lowerTypeWith moves agreement file expr).map fun _ => rfl

/-- What is underneath a type expression. -/
theorem underlyingWith
    (file : FileScope) :
    ∀ expr : TypeExpr,
      transfer.Gives transfer.underlying
        (before.underlyingWith left file expr)
        (after.underlyingWith right (transfer.file file) (expr.moved (transfer.span file)))
  | .paren _ inner => underlyingWith file inner
  | .interface _ elems =>
      (interfaceMethodsWith moves agreement file [] {} elems).map fun _ => rfl
  | .struct _ fields => (lowerFieldsWith moves agreement file fields).map fun _ => rfl
  | .name span qualifier ident hasArgs args => by
      have type := lowered moves agreement file (.name span qualifier ident hasArgs args)
      simp only [Scope.underlyingWith, Syntax.TypeExpr.moved, Option.isNone_map] at type ⊢
      split
      · exact type
      · exact plainNameUnderlying moves agreement file span _ qualifier ident
  | .missing start => lowered moves agreement file (.missing start)
  | .pointer span elem => lowered moves agreement file (.pointer span elem)
  | .slice span elem => lowered moves agreement file (.slice span elem)
  | .array span length elem => lowered moves agreement file (.array span length elem)
  | .map span key value => lowered moves agreement file (.map span key value)
  | .chan span direction elem => lowered moves agreement file (.chan span direction elem)
  | .func span params result => lowered moves agreement file (.func span params result)

omit agreement in
/-- The meanings of declared names become each other, however deep they look. -/
theorem agreement_meaning
    (depth : Nat) :
    transfer.Agreement before (before.meaning depth) (after.meaning depth) := by
  induction depth with
  | zero => exact ⟨fun _ _ _ _ => .fail rfl, fun _ _ _ => .fail rfl⟩
  | succ depth inductionHypothesis =>
      constructor
      · intro _ decl _ _
        have inside := lowerTypeWith moves inductionHypothesis decl.file decl.spec.type
        exact inside.expanding (transfer.decl_name decl) (transfer.kind_recursive decl)
      · intro _ decl _
        have inside := underlyingWith moves inductionHypothesis decl.file decl.spec.type
        have sameName := transfer.decl_name decl
        have sameKind := transfer.kind_recursive decl
        exact Carries.branch Iff.rfl (fun _ => inside.expanding sameName sameKind)
          fun _ => inside.finding sameName sameKind

omit agreement in
/-- What the declared names of a package mean becomes what they mean in its new place. -/
theorem agreement_declMeaning :
    transfer.Agreement before before.declMeaning after.declMeaning := by
  simp only [Scope.declMeaning, moves.size]
  exact agreement_meaning moves _

end Lowering

end Transfer

end Implementers
