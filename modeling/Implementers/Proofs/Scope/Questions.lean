import Implementers.Proofs.Scope.InPlace
import Implementers.Proofs.Scope.Recollection
import Implementers.Scope.Package
import Mathlib.Data.List.Forall2

/-!
# The questions that a package asks

The resolution of a package asks for the methods that function declarations declare, for what is
underneath declared types, and for what their embedded fields promote.  Each of these questions is
carried along by every congruence under which the meanings of declared names agree.  Which types
are asked for does not depend on the method table, nor on whether a type is seen through a pointer.
-/

namespace Implementers

open Scope (PromotionState)
open Syntax (TypeExpr ParamList FieldDecl FuncDecl Receiver)

/-- What a receiver clause comes to whose type stands in the source. -/
def Scope.writtenReceiver
    (scope : Scope)
    (file : FileScope)
    (position : Position)
    (type : TypeExpr) :
    Resolve (Option (TypeDecl × Bool)) :=
  match Scope.bareReceiver false type with
  | .error name => .fail (.invalidReceiver position name)
  | .ok bare =>
      (scope.receiverBase file position bare.type).andThen fun base =>
        .answer (base.map fun decl => (decl, bare.pointer))

namespace Relocation

variable
  {relocation : Relocation}
  {before after : Scope}

/-- Names and aliases lead to the declarations in their new places. -/
theorem Moves.retraces
    (moves : relocation.Moves before after) :
    before.Retraces relocation.decl after where
  size := moves.size
  lookup := moves.lookup
  name _ := rfl
  isAlias _ := rfl
  type _ := ⟨_, rfl⟩

end Relocation

/-- What remains of a receiver type without parentheses and pointer stands where the type does. -/
theorem Scope.bareReceiver_moved
    (move : Syntax.Span → Syntax.Span) :
    ∀ (pointer : Bool) (type : TypeExpr),
      bareReceiver pointer (type.moved move) =
        (bareReceiver pointer type).map fun bare => ⟨bare.pointer, bare.type.moved move⟩
  | pointer, .paren _ inner => by
      have within := bareReceiver_moved move pointer inner
      cases inner with
      | missing _ => rfl
      | _ => exact within
  | true, .pointer _ elem => by cases elem <;> rfl
  | false, .pointer _ elem => by
      have within := bareReceiver_moved move true elem
      cases elem with
      | missing _ => rfl
      | _ => exact within
  | _, .missing _ => rfl
  | _, .name _ _ _ _ _ => rfl
  | _, .slice _ _ => rfl
  | _, .array _ _ _ => rfl
  | _, .map _ _ _ => rfl
  | _, .chan _ _ _ => rfl
  | _, .func _ _ _ => rfl
  | _, .struct _ _ => rfl
  | _, .interface _ _ => rfl

/-- Two receiver sites of one type, wherever they stand. -/
def ReceiverSite.Corresponds
    (left right : ReceiverSite) :
    Prop :=
  left.base = right.base ∧ left.pointer = right.pointer

/-- Two method tables that differ in the places of receivers only. -/
structure MethodTable.Corresponds
    (left right : MethodTable) :
    Prop where
  methods : left.methods = right.methods
  receivers : List.Forall₂ ReceiverSite.Corresponds left.receivers right.receivers

/-- Tables with the same methods declare the same names. -/
theorem MethodTable.Corresponds.declares
    {left right : MethodTable}
    (corresponds : left.Corresponds right)
    (base : String)
    (name : MethodName) :
    right.declares base name = left.declares base name := by
  simp only [MethodTable.declares, MethodTable.declared, corresponds.methods]

namespace Congruence

section Questions

variable
  (congruence : Congruence)
  {relocation : Relocation}
  {before after : Scope}
  (moves : relocation.Moves before after)
  (agreement :
    congruence.Agreement relocation before before.declMeaning after.declMeaning)

include moves agreement

/-- What is underneath a name. -/
theorem underlyingOf
    (name : String) :
    congruence.Related relocation.Underlies
      (before.underlyingOf name)
      (after.underlyingOf name) := by
  simp only [Scope.underlyingOf, moves.lookup]
  cases found : before.lookup? name with
  | some decl => exact agreement.underlying name decl found
  | none => exact congruence.answer rfl

/-- The signature of a function. -/
theorem lowerSignature
    (file : FileScope)
    (params : ParamList)
    (result : Syntax.Result) :
    congruence.Related Eq
      (before.lowerSignature file params result)
      (after.lowerSignature (relocation.file file) (params.moved relocation.span)
        (result.moved relocation.span)) := by
  apply congruence.sequence (congruence.lowerParamListWith moves agreement file params)
  rintro ⟨types, variadic⟩
  exact congruence.map (congruence.lowerResultWith moves agreement file result)
    fun _ _ same => congrArg (fun results => Signature.mk types results variadic) same

/-- The declared type that a receiver names. -/
theorem receiverBase
    (file : FileScope)
    (position position' : Position)
    (type : TypeExpr) :
    congruence.Related (fun left right => left.map relocation.decl = right)
      (before.receiverBase file position type)
      (after.receiverBase (relocation.file file) position' (type.moved relocation.span)) := by
  cases type with
  | name span qualifier ident hasArgs args =>
      cases qualifier with
      | some _ => exact congruence.fail _ _
      | none =>
          cases ident with
          | none => exact congruence.fail _ _
          | some ident =>
              simp only [Scope.receiverBase, TypeExpr.moved, Option.map_none, Option.map_some,
                Syntax.Ident.moved_text, moves.retraces.throughAliases?]
              cases before.throughAliases? Scope.aliasLimit ident.text with
              | none => exact congruence.fail _ _
              | some target =>
                  cases target with
                  | none =>
                      exact congruence.branch Iff.rfl (fun _ => congruence.fail _ _)
                        fun _ => congruence.fail _ _
                  | some decl =>
                      refine congruence.branch Iff.rfl (fun _ => congruence.answer rfl) ?_
                      intro _
                      refine congruence.andThen
                        (congruence.underlyingOf moves agreement decl.name) ?_
                      rintro underlying _ rfl
                      cases underlying with
                      | interface _ => exact congruence.fail _ _
                      | _ => exact congruence.answer rfl
  | _ => exact congruence.fail _ _

/-- The declared type of a receiver clause. -/
theorem receiverOf
    (file : FileScope)
    (receiver : Receiver) :
    congruence.Related
      (fun left right =>
        left.map (fun base => (relocation.decl base.1, base.2)) = right)
      (before.receiverOf file receiver)
      (after.receiverOf (relocation.file file) (receiver.moved relocation.span)) := by
  obtain ⟨span, param⟩ := receiver
  cases param with
  | none => exact congruence.fail _ _
  | some param =>
      obtain ⟨paramSpan, name, variadic, type⟩ := param
      have based (pointer : Bool) (type : TypeExpr) :
          congruence.Related
            (fun left right => left.map (fun base => (relocation.decl base.1, base.2)) = right)
            ((before.receiverBase file (file.position span.start) type).andThen fun base =>
              .answer (base.map fun decl => (decl, pointer)))
            ((after.receiverBase (relocation.file file)
                ((relocation.file file).position (relocation.span span).start)
                (type.moved relocation.span)).andThen fun base =>
              .answer (base.map fun decl => (decl, pointer))) :=
        congruence.map (congruence.receiverBase moves agreement file _ _ type)
          (by rintro (_ | decl) _ rfl <;> rfl)
      have written :
          congruence.Related
            (fun left right => left.map (fun base => (relocation.decl base.1, base.2)) = right)
            (before.writtenReceiver file (file.position span.start) type)
            (after.writtenReceiver (relocation.file file)
              ((relocation.file file).position (relocation.span span).start)
              (type.moved relocation.span)) := by
        rw [Scope.writtenReceiver, Scope.writtenReceiver, Scope.bareReceiver_moved]
        cases Scope.bareReceiver false type with
        | error name => exact congruence.fail _ _
        | ok bare => exact based bare.pointer bare.type
      cases type with
      | missing _ => exact congruence.fail _ _
      | _ => exact written

omit moves agreement in
/-- The site of a receiver, wherever it stands. -/
theorem forall₂_receiverSite
    (file : FileScope)
    (receiver : Receiver)
    (base : String)
    (pointer : Bool) :
    List.Forall₂ ReceiverSite.Corresponds
      (Scope.receiverSite? file receiver base pointer).toList
      (Scope.receiverSite? (relocation.file file) (receiver.moved relocation.span) base
        pointer).toList := by
  obtain ⟨_, param⟩ := receiver
  rcases param with _ | ⟨_, name, _, _⟩
  · exact .nil
  · cases name with
    | none => exact .nil
    | some name =>
        simp only [Scope.receiverSite?, Syntax.Receiver.moved, Syntax.Param.moved,
          Option.map_some, Option.bind_some, Syntax.Param.name, Syntax.Ident.moved_text]
        by_cases blank : (name.text == blankName) = true
        · simp [blank]
        · simp [blank, ReceiverSite.Corresponds]

/-- A method table with the method that a function declaration declares. -/
theorem addMethodDecl
    (file : FileScope)
    {table table' : MethodTable}
    (corresponds : table.Corresponds table')
    (func : FuncDecl) :
    congruence.Related MethodTable.Corresponds
      (before.addMethodDecl file table func)
      (after.addMethodDecl (relocation.file file) table' (func.moved relocation.span)) := by
  obtain ⟨span, receiver, name, generic, params, result⟩ := func
  cases receiver with
  | none => exact congruence.answer corresponds
  | some receiver =>
      apply congruence.andThen (congruence.receiverOf moves agreement file receiver)
      rintro (_ | ⟨decl, pointer⟩) _ rfl
      · exact congruence.answer corresponds
      · cases name with
        | none => exact congruence.answer corresponds
        | some name =>
            have sited :
                MethodTable.Corresponds
                  { table with
                    receivers := table.receivers ++
                      (Scope.receiverSite? file receiver decl.name pointer).toList }
                  { table' with
                    receivers := table'.receivers ++
                      (Scope.receiverSite? (relocation.file file)
                        (receiver.moved relocation.span) decl.name pointer).toList } :=
              ⟨corresponds.methods, List.rel_append corresponds.receivers
                (forall₂_receiverSite file receiver decl.name pointer)⟩
            apply congruence.branch Iff.rfl (fun _ => congruence.answer sited)
            intro _
            refine congruence.sequence
              (congruence.lowerSignature moves agreement file params result) ?_
            intro signature
            have sameName : after.methodName name.text = before.methodName name.text := by
              simp only [Scope.methodName, moves.package]
            simp only [Syntax.Ident.moved_text, Relocation.decl_name, sameName]
            apply congruence.branch (by rw [sited.declares]) (fun _ => congruence.fail _ _)
            intro _
            exact congruence.answer
              ⟨by simp only [corresponds.methods], sited.receivers⟩

/-- A method table with the methods that function declarations declare. -/
theorem addMethodDecls
    (funcs : List (FileScope × FuncDecl)) :
    ∀ {table table' : MethodTable}, table.Corresponds table' →
      congruence.Related MethodTable.Corresponds
        (before.addMethodDecls table funcs)
        (after.addMethodDecls table'
          (funcs.map fun func => (relocation.file func.1, func.2.moved relocation.span))) := by
  induction funcs with
  | nil =>
      intro table table' corresponds
      exact congruence.answer corresponds
  | cons func rest inductionHypothesis =>
      intro table table' corresponds
      exact congruence.andThen
        (congruence.addMethodDecl moves agreement func.1 corresponds func.2)
        fun _ _ added => inductionHypothesis added

/-! ### Promotion -/

/-- What is underneath a reached type, and the ways that it opens, whatever its members are. -/
theorem membersOf
    (table table' : MethodTable)
    (target : EmbeddedTarget)
    (indirect indirect' : Bool) :
    congruence.Related (fun left right => left.2.map Prod.fst = right.2.map Prod.fst)
      (before.membersOf table target indirect)
      (after.membersOf table' target indirect') := by
  cases target with
  | errorInterface => exact congruence.answer rfl
  | declared name =>
      apply congruence.andThen (congruence.underlyingOf moves agreement name)
      rintro underlying _ rfl
      cases underlying with
      | struct file fields =>
          apply congruence.answer
          simp only [Syntax.fieldsMoved_eq_map, List.filterMap_map, List.map_filterMap]
          refine congrArg (fun way => fields.filterMap way) (funext fun field => ?_)
          rw [Function.comp_apply, moves.retraces.fieldWay?]
          simp only [Scope.fieldWay?]
          split
          · cases before.embeddedTarget? field <;> rfl
          · rfl
      | _ => exact congruence.answer rfl

/-- The ways to the level behind the types of a level, whatever their members are. -/
theorem levelMembers
    (table table' : MethodTable) :
    ∀ level level' : List ReachedType,
      level.map ReachedType.target = level'.map ReachedType.target →
      congruence.Related (fun left right => left.2.map Prod.fst = right.2.map Prod.fst)
        (before.levelMembers table level)
        (after.levelMembers table' level')
  | [], [], _ => congruence.answer rfl
  | reached :: rest, reached' :: rest', same => by
      obtain ⟨sameTarget, sameRest⟩ := List.cons.inj same
      simp only [Scope.levelMembers, ← sameTarget]
      refine congruence.andThen
        (congruence.membersOf moves agreement table table' reached.target _ _) ?_
      intro ⟨_, ways⟩ ⟨_, ways'⟩ sameWays
      apply congruence.map (levelMembers table table' rest rest' sameRest)
      intro ⟨_, others⟩ ⟨_, others'⟩ sameOthers
      simp only at sameWays sameOthers
      simp only [List.map_append, sameWays, sameOthers]

end Questions

end Congruence

namespace ReachedType

/-- One more way reaches its target, if no earlier way does. -/
theorem targets_add
    (reachedTarget : EmbeddedTarget)
    (indirect : Bool)
    (level : List ReachedType) :
    (add reachedTarget indirect level).map target =
      if reachedTarget ∈ level.map target then
        level.map target
      else
        level.map target ++ [reachedTarget] := by
  induction level with
  | nil => simp [add]
  | cons reached rest inductionHypothesis =>
      by_cases same : reached.target = reachedTarget
      · simp [add, same]
      · have different : reachedTarget ≠ reached.target := fun equal => same equal.symm
        simp only [add, if_neg same, List.map_cons, inductionHypothesis, List.mem_cons, different,
          false_or]
        split <;> rfl

/-- Ways to the same types reach the same types, whatever they are like. -/
theorem targets_foldl_add
    (seen : List EmbeddedTarget) :
    ∀ {ways ways' : List (EmbeddedTarget × Bool)} {level level' : List ReachedType},
      ways.map Prod.fst = ways'.map Prod.fst →
      level.map target = level'.map target →
      (ways.foldl
          (fun level way => if seen.contains way.1 then level else add way.1 way.2 level)
          level).map target =
        (ways'.foldl
          (fun level way => if seen.contains way.1 then level else add way.1 way.2 level)
          level').map target
  | [], [], _, _, _, sameLevel => sameLevel
  | way :: rest, way' :: rest', _, _, sameWays, sameLevel => by
      obtain ⟨sameTarget, sameRest⟩ := List.cons.inj sameWays
      simp only [List.foldl_cons, ← sameTarget]
      apply targets_foldl_add seen sameRest
      split
      · exact sameLevel
      · simp only [targets_add, sameLevel]

end ReachedType

namespace Scope.PromotionState

/-- Two promotions that have come equally far, whatever they have promoted. -/
structure Keeps
    (left right : PromotionState) :
    Prop where
  seen : left.seen = right.seen
  ways : left.ways.map Prod.fst = right.ways.map Prod.fst

/-- Promotions that have come equally far reach the same types next. -/
theorem Keeps.targets_level
    {left right : PromotionState}
    (keeps : left.Keeps right) :
    (ReachedType.level left.seen left.ways).map ReachedType.target =
      (ReachedType.level right.seen right.ways).map ReachedType.target := by
  rw [keeps.seen]
  exact ReachedType.targets_foldl_add right.seen keeps.ways rfl

end Scope.PromotionState

/-- A symbol beside one of the same type in another place, whose promoted methods may differ. -/
structure Symbol.Corresponds
    (left right : Symbol) :
    Prop where
  name : left.name = right.name
  package : left.package = right.package
  kind : left.kind = right.kind
  pointer : left.pointer = right.pointer
  isPartial : left.isPartial = right.isPartial
  methods : left.kind = .interface → left.methods = right.methods

/-- The symbols of two declarations or receivers, if they make any. -/
def PlacedSymbol.Corresponds
    (left right : Option PlacedSymbol) :
    Prop :=
  Option.Rel (fun left right => left.symbol.Corresponds right.symbol) left right

/-- The symbol that what is underneath a declaration makes, whatever is warned about before. -/
def Scope.underlyingSymbol?
    (scope : Scope)
    (table : MethodTable)
    (decl : TypeDecl) :
    Resolve (Option PlacedSymbol) := do
  match ← scope.underlyingOf decl.name with
  | .interface interface =>
      if interface.isConstraint then
        return none
      else
        return some (scope.typeSymbol decl .interface interface.methods interface.isPartial)
  | _ => do
      let methods ← scope.concreteMethods table decl.name false
      return some (scope.typeSymbol decl .concrete methods false)

namespace Congruence

section Questions

variable
  (congruence : Congruence)
  {relocation : Relocation}
  {before after : Scope}
  (moves : relocation.Moves before after)
  (agreement :
    congruence.Agreement relocation before before.declMeaning after.declMeaning)

include moves agreement

/-- The promotion one level further. -/
theorem promoteLevel
    (table table' : MethodTable)
    {state state' : PromotionState}
    (keeps : state.Keeps state') :
    congruence.Related PromotionState.Keeps
      (before.promoteLevel table state)
      (after.promoteLevel table' state') := by
  refine congruence.map
    (congruence.levelMembers moves agreement table table' _ _ keeps.targets_level) ?_
  intro ⟨_, ways⟩ ⟨_, ways'⟩ sameWays
  exact ⟨by simp only [keeps.targets_level]; rw [keeps.seen], sameWays⟩

/-- The promotion until no way is left. -/
theorem promoteWithin
    (table table' : MethodTable)
    (levels : Nat) :
    ∀ {state state' : PromotionState}, state.Keeps state' →
      congruence.Related (fun _ _ => True)
        (before.promoteWithin table levels state)
        (after.promoteWithin table' levels state') := by
  induction levels with
  | zero =>
      intro state state' _
      exact congruence.answer trivial
  | succ levels inductionHypothesis =>
      intro state state' keeps
      have sameEnd : state'.ways.isEmpty = state.ways.isEmpty := by
        have sameLength := congrArg List.length keeps.ways
        simp only [List.length_map] at sameLength
        rw [Bool.eq_iff_iff, List.isEmpty_iff_length_eq_zero, List.isEmpty_iff_length_eq_zero,
          sameLength]
      apply congruence.branch (by rw [sameEnd]) (fun _ => congruence.answer trivial)
      intro _
      exact congruence.andThen (congruence.promoteLevel moves agreement table table' keeps)
        fun _ _ next => inductionHypothesis next

/--
The method set of a concrete type.  What it asks for depends neither on the methods of the table
nor on whether the type is seen through a pointer.
-/
theorem concreteMethods
    (table table' : MethodTable)
    (base : String)
    (pointer pointer' : Bool) :
    congruence.Related (fun _ _ => True)
      (before.concreteMethods table base pointer)
      (after.concreteMethods table' base pointer') := by
  simp only [Scope.concreteMethods, moves.size]
  exact congruence.promoteWithin moves agreement table table' _ ⟨rfl, rfl⟩

omit moves agreement in
/-- The warnings about embedded types from other packages. -/
theorem warnUnpromoted
    (file : FileScope)
    (owner : String)
    (fields : List FieldDecl) :
    congruence.Related Eq
      (before.warnUnpromoted file owner fields)
      (after.warnUnpromoted (relocation.file file) owner
        (Syntax.fieldsMoved relocation.span fields)) := by
  induction fields with
  | nil => exact congruence.answer rfl
  | cons field rest inductionHypothesis =>
      obtain ⟨span, names, starred, type⟩ := field
      have quiet :
          congruence.Related Eq
            ((Resolve.answer ()).andThen fun _ => before.warnUnpromoted file owner rest)
            ((Resolve.answer ()).andThen fun _ =>
              after.warnUnpromoted (relocation.file file) owner
                (Syntax.fieldsMoved relocation.span rest)) :=
        congruence.sequence (congruence.answer rfl) fun _ => inductionHypothesis
      cases names with
      | cons _ _ => exact quiet
      | nil =>
          cases type with
          | name _ qualifier _ _ _ =>
              cases qualifier with
              | none => exact quiet
              | some qualifier =>
                  exact congruence.sequence (congruence.warn _ _) fun _ => inductionHypothesis
          | _ => exact quiet

/-- The symbol that what is underneath a declaration makes. -/
theorem underlyingSymbol?
    (table table' : MethodTable)
    (decl : TypeDecl) :
    congruence.Related PlacedSymbol.Corresponds
      (before.underlyingSymbol? table decl)
      (after.underlyingSymbol? table' (relocation.decl decl)) := by
  have concrete :
      congruence.Related PlacedSymbol.Corresponds
        ((before.concreteMethods table decl.name false).andThen fun methods =>
          .answer (some (before.typeSymbol decl .concrete methods false)))
        ((after.concreteMethods table' decl.name false).andThen fun methods =>
          .answer (some (after.typeSymbol (relocation.decl decl) .concrete methods false))) :=
    congruence.map
      (congruence.concreteMethods moves agreement table table' decl.name false false)
      fun _ _ _ =>
        .some ⟨rfl, moves.package.symm, rfl, rfl, rfl, fun isInterface => by cases isInterface⟩
  apply congruence.andThen (congruence.underlyingOf moves agreement decl.name)
  rintro underlying _ rfl
  cases underlying with
  | interface interface =>
      exact congruence.branch Iff.rfl (fun _ => congruence.answer .none) fun _ =>
        congruence.answer (.some ⟨rfl, moves.package.symm, rfl, rfl, rfl, fun _ => rfl⟩)
  | _ => exact concrete

/-- The symbol that a declaration makes. -/
theorem declSymbol?
    (table table' : MethodTable)
    (decl : TypeDecl) :
    congruence.Related PlacedSymbol.Corresponds
      (before.declSymbol? table decl)
      (after.declSymbol? table' (relocation.decl decl)) := by
  have made := congruence.underlyingSymbol? moves agreement table table' decl
  apply congruence.branch Iff.rfl (fun _ => congruence.answer .none)
  intro _
  simp only [Relocation.decl_type]
  cases decl.spec.type with
  | struct _ fields =>
      exact congruence.sequence
        (congruence.warnUnpromoted decl.file decl.name fields) fun _ => made
  | _ => exact made

/-- The symbol that a named receiver makes. -/
theorem siteSymbol?
    (table table' : MethodTable)
    {site site' : ReceiverSite}
    (corresponds : site.Corresponds site') :
    congruence.Related PlacedSymbol.Corresponds
      (before.siteSymbol? table site)
      (after.siteSymbol? table' site') := by
  obtain ⟨sameBase, samePointer⟩ := corresponds
  simp only [Scope.siteSymbol?, ← sameBase, ← samePointer, moves.lookup]
  cases before.lookup? site.base with
  | none => exact congruence.answer .none
  | some decl =>
      exact congruence.map
        (congruence.concreteMethods moves agreement table table' site.base site.pointer _)
        fun _ _ _ =>
          .some ⟨rfl, moves.package.symm, rfl, rfl, rfl, fun isInterface => by cases isInterface⟩

end Questions

end Congruence

end Implementers
