import Implementers.Proofs.Scope.Questions
import Implementers.Proofs.Scope.Transfer
import Mathlib.Data.List.Forall2

/-!
# The symbols of a transferred package

The method table of a transferred package is the transferred table, its types promote the
transferred methods, and its symbols are the counterparts of the symbols that it had before, in the
same order.  When one of the two packages cannot be resolved, neither can the other, and the errors
are of one kind.
-/

namespace Implementers

open Scope (PromotionState)
open Syntax (Ident TypeExpr ParamList FieldDecl FuncDecl Receiver)

/-- A declared method under new identities of packages. -/
def DeclaredMethod.renamed
    (rename : Renaming)
    (method : DeclaredMethod) :
    DeclaredMethod :=
  { method with
    name := method.name.renamed rename
    signature := method.signature.renamed rename }

/-- A member under new identities of packages. -/
def Member.renamed
    (rename : Renaming) :
    Member → Member
  | .method name signature callable =>
      .method (name.renamed rename) (signature.renamed rename) callable
  | .field => .field

/-- Named members under new identities of packages. -/
def membersRenamed
    (rename : Renaming)
    (members : List NamedMember) :
    List NamedMember :=
  members.map fun member => (member.1, member.2.renamed rename)

namespace Transfer

/-- A receiver site where it is transferred to. -/
def site
    (transfer : Transfer)
    (before : ReceiverSite) :
    ReceiverSite :=
  { before with
    file := transfer.file before.file
    offset := transfer.shift before.file.index before.offset }

/-- A method table where it is transferred to. -/
def table
    (transfer : Transfer)
    (before : MethodTable) :
    MethodTable :=
  ⟨before.methods.map (DeclaredMethod.renamed transfer.rename),
    before.receivers.map transfer.site⟩

/-- A transferred method table, all of whose receivers stand at regular offsets. -/
structure Tabled
    (transfer : Transfer)
    (before after : MethodTable) :
    Prop where
  table : after = transfer.table before
  regular : ∀ site ∈ before.receivers, transfer.regular site.file.index site.offset

/-- A position and the position that it is transferred to. -/
def Places
    (transfer : Transfer)
    (before after : Position) :
    Prop :=
  ∃ file offset, before = file.position offset ∧
    after = (transfer.file file).position (transfer.shift file.index offset)

/-- A symbol and the one that it becomes by a transfer. -/
structure Counterpart
    (transfer : Transfer)
    (before after : Symbol) :
    Prop where
  name : after.name = before.name
  package : after.package = transfer.rename.package before.package
  kind : after.kind = before.kind
  pointer : after.pointer = before.pointer
  position : transfer.Places before.position after.position
  declaration : transfer.Places before.declaration after.declaration
  methods : after.methods = before.methods.renamed transfer.rename
  isPartial : after.isPartial = before.isPartial

/-- A placed symbol and the one that it becomes by a transfer. -/
structure PlacedCounterpart
    (transfer : Transfer)
    (before after : PlacedSymbol) :
    Prop where
  file : after.file = before.file
  offset : after.offset = transfer.shift before.file before.offset
  regular : transfer.regular before.file before.offset
  symbol : transfer.Counterpart before.symbol after.symbol

/-! ## Declared methods -/

section Names

variable
  {transfer : Transfer}
  {before after : Scope}
  (moves : transfer.Moves before after)

include moves

/-- What is underneath a name. -/
theorem underlyingOf
    (name : String) :
    transfer.Gives transfer.underlying (before.underlyingOf name) (after.underlyingOf name) := by
  simp only [Scope.underlyingOf, moves.lookup]
  cases found : before.lookup? name with
  | some decl => exact (agreement_declMeaning moves).underlying name decl found
  | none => exact .answer rfl

/-- The signature of a function. -/
theorem lowerSignature
    (file : FileScope)
    (params : ParamList)
    (result : Syntax.Result) :
    transfer.Gives (Signature.renamed transfer.rename)
      (before.lowerSignature file params result)
      (after.lowerSignature (transfer.file file) (params.moved (transfer.span file))
        (result.moved (transfer.span file))) := by
  have agreement := agreement_declMeaning moves
  apply (lowerParamListWith moves agreement file params).sequence
  rintro ⟨types, variadic⟩
  exact (lowerResultWith moves agreement file result).map fun _ => rfl

/-- The declared type that a receiver names. -/
theorem receiverBase
    (file : FileScope)
    (position position' : Position)
    (type : TypeExpr) :
    transfer.Gives (Option.map transfer.decl)
      (before.receiverBase file position type)
      (after.receiverBase (transfer.file file) position' (type.moved (transfer.span file))) := by
  cases type with
  | name span qualifier ident hasArgs args =>
      cases qualifier with
      | some _ => exact .fail rfl
      | none =>
          cases ident with
          | none => exact .fail rfl
          | some ident =>
              simp only [Scope.receiverBase, TypeExpr.moved, Option.map_none, Option.map_some,
                Syntax.Ident.moved_text, moves.retraces.throughAliases?]
              cases before.throughAliases? Scope.aliasLimit ident.text with
              | none => exact .fail rfl
              | some target =>
                  cases target with
                  | none =>
                      exact Carries.branch Iff.rfl (fun _ => .fail rfl) fun _ => .fail rfl
                  | some decl =>
                      refine Carries.branch Iff.rfl (fun _ => .answer rfl) fun _ => ?_
                      apply (underlyingOf moves decl.name).sequence
                      intro underlying
                      exact Carries.branch (by rw [underlying_isInterface]) (fun _ => .fail rfl)
                        fun _ => .answer rfl
  | _ => exact .fail rfl

/-- The declared type of a receiver clause, and whether the receiver is a pointer. -/
theorem receiverOf
    (file : FileScope)
    (receiver : Receiver) :
    transfer.Gives (Option.map fun base => (transfer.decl base.1, base.2))
      (before.receiverOf file receiver)
      (after.receiverOf (transfer.file file) (receiver.moved (transfer.span file))) := by
  obtain ⟨span, param⟩ := receiver
  cases param with
  | none => exact .fail rfl
  | some param =>
      obtain ⟨paramSpan, name, variadic, type⟩ := param
      have written :
          transfer.Gives (Option.map fun base => (transfer.decl base.1, base.2))
            (before.writtenReceiver file (file.position span.start) type)
            (after.writtenReceiver (transfer.file file)
              ((transfer.file file).position (transfer.span file span).start)
              (type.moved (transfer.span file))) := by
        rw [Scope.writtenReceiver, Scope.writtenReceiver, Scope.bareReceiver_moved]
        cases Scope.bareReceiver false type with
        | error name => exact .fail rfl
        | ok bare =>
            exact (receiverBase moves file _ _ bare.type).map fun base => by cases base <;> rfl
      cases type with
      | missing _ => exact .fail rfl
      | _ => exact written

omit moves in
/-- The site of a receiver is found where it is transferred to. -/
theorem receiverSite?_moved
    (file : FileScope)
    (receiver : Receiver)
    (base : String)
    (pointer : Bool) :
    Scope.receiverSite? (transfer.file file) (receiver.moved (transfer.span file)) base pointer =
      (Scope.receiverSite? file receiver base pointer).map transfer.site := by
  obtain ⟨_, param⟩ := receiver
  rcases param with _ | ⟨_, name, _, _⟩
  · rfl
  · cases name with
    | none => rfl
    | some name =>
        simp only [Scope.receiverSite?, Syntax.Receiver.moved, Syntax.Param.moved,
          Option.map_some, Option.bind_some, Syntax.Param.name, Syntax.Ident.moved]
        split <;> simp [Transfer.site, Transfer.span]

omit moves in
/-- The site of a regular receiver stands at a regular offset. -/
theorem regular_receiverSite?
    {file : FileScope}
    {func : FuncDecl}
    {receiver : Receiver}
    (isReceiver : func.receiver = some receiver)
    (regular : transfer.RegularReceiver (file, func))
    {base : String}
    {pointer : Bool}
    {site : ReceiverSite}
    (found : Scope.receiverSite? file receiver base pointer = some site) :
    transfer.regular site.file.index site.offset := by
  simp only [Scope.receiverSite?, Option.bind_eq_some_iff] at found
  obtain ⟨name, ⟨param, isParam, isName⟩, made⟩ := found
  split at made
  · cases made
  · cases made
    exact regular receiver isReceiver param isParam name isName

omit moves in
/-- The transferred table declares the same methods. -/
theorem table_declares
    (transfer : Transfer)
    (table : MethodTable)
    (base : String)
    (name : MethodName) :
    (transfer.table table).declares base (name.renamed transfer.rename) =
      table.declares base name := by
  simp only [MethodTable.declares, MethodTable.declared, Transfer.table, List.filter_map,
    List.any_map, Function.comp_def, DeclaredMethod.renamed, MethodName.renamed_same]

/-- A method table with the method that a function declaration declares. -/
theorem addMethodDecl
    (file : FileScope)
    (func : FuncDecl)
    (regular : transfer.RegularReceiver (file, func))
    {table table' : MethodTable}
    (tabled : transfer.Tabled table table') :
    transfer.Carries transfer.Tabled
      (before.addMethodDecl file table func)
      (after.addMethodDecl (transfer.file file) table' (func.moved (transfer.span file))) := by
  obtain ⟨span, receiver, name, generic, params, result⟩ := func
  cases receiver with
  | none => exact .answer tabled
  | some receiver =>
      apply (receiverOf moves file receiver).sequence
      rintro (_ | ⟨decl, pointer⟩)
      · exact .answer tabled
      · cases name with
        | none => exact .answer tabled
        | some name =>
            let found := (Scope.receiverSite? file receiver decl.name pointer).toList
            have sited :
                transfer.Tabled
                  { table with receivers := table.receivers ++ found }
                  { table' with
                    receivers := table'.receivers ++
                      (Scope.receiverSite? (transfer.file file)
                        (receiver.moved (transfer.span file)) decl.name pointer).toList } := by
              constructor
              · rw [tabled.table, receiverSite?_moved]
                simp only [Transfer.table, List.map_append, Option.toList_map, found]
              · intro site member
                rcases List.mem_append.mp member with earlier | new
                · exact tabled.regular site earlier
                · exact regular_receiverSite? rfl regular (Option.mem_toList.mp new)
            apply Carries.branch Iff.rfl (fun _ => .answer sited)
            intro _
            apply (lowerSignature moves file params result).sequence
            intro signature
            simp only [Syntax.Ident.moved_text, decl_name, moves.methodName]
            have sameDeclares :=
              transfer.table_declares { table with receivers := table.receivers ++ found }
                decl.name (before.methodName name.text)
            rw [← sited.table] at sameDeclares
            refine Carries.branch (by rw [sameDeclares]) (fun _ => .fail (by rfl)) fun _ => ?_
            apply Carries.answer
            refine ⟨?_, sited.regular⟩
            simp only [tabled.table, receiverSite?_moved, Transfer.table, List.map_append,
              Option.toList_map]
            rfl

/-- A method table with the methods that function declarations declare. -/
theorem addMethodDecls
    (funcs : List (FileScope × FuncDecl))
    (regular : ∀ entry ∈ funcs, transfer.RegularReceiver entry) :
    ∀ {table table' : MethodTable}, transfer.Tabled table table' →
      transfer.Carries transfer.Tabled
        (before.addMethodDecls table funcs)
        (after.addMethodDecls table'
          (funcs.map fun entry =>
            (transfer.file entry.1, entry.2.moved (transfer.span entry.1)))) := by
  induction funcs with
  | nil => exact fun tabled => .answer tabled
  | cons entry rest inductionHypothesis =>
      intro table table' tabled
      have regularRest : ∀ other ∈ rest, transfer.RegularReceiver other :=
        fun other member => regular other (List.mem_cons_of_mem _ member)
      exact (addMethodDecl moves entry.1 entry.2 (regular entry List.mem_cons_self) tabled).andThen
        fun _ _ added => inductionHypothesis regularRest added

/-- The methods and named receivers of a package. -/
theorem methodTable :
    transfer.Carries transfer.Tabled before.methodTable after.methodTable := by
  have empty : transfer.Tabled .empty .empty := ⟨rfl, fun _ member => nomatch member⟩
  simp only [Scope.methodTable, moves.funcs]
  exact addMethodDecls moves before.funcDecls moves.regularReceivers empty

end Names

/-! ## Promotion -/

/-- How far a promotion has come, under new identities of packages. -/
def promotion
    (transfer : Transfer)
    (state : PromotionState) :
    PromotionState :=
  { state with methods := state.methods.renamed transfer.rename }

/-- The methods of an interface as members, under new identities of packages. -/
theorem interfaceMembers_renamed
    (rename : Renaming)
    (methods : MethodSet) :
    Scope.interfaceMembers (methods.renamed rename) =
      membersRenamed rename (Scope.interfaceMembers methods) := by
  simp [Scope.interfaceMembers, membersRenamed, Member.renamed]

/-- The declared methods of a type as members, under new identities of packages. -/
theorem declaredMembers_table
    (transfer : Transfer)
    (table : MethodTable)
    (name : String)
    (indirect : Bool) :
    Scope.declaredMembers (transfer.table table) name indirect =
      membersRenamed transfer.rename (Scope.declaredMembers table name indirect) := by
  simp [Scope.declaredMembers, MethodTable.declared, Transfer.table, List.filter_map,
    Function.comp_def, DeclaredMethod.renamed, membersRenamed, Member.renamed]

/-- The names that field declarations give to members belong to no package. -/
theorem fieldMembers_moved
    (rename : Renaming)
    (move : Syntax.Span → Syntax.Span)
    (fields : List FieldDecl) :
    (Syntax.fieldsMoved move fields).flatMap Scope.fieldMembers =
      membersRenamed rename (fields.flatMap Scope.fieldMembers) := by
  have each (field : FieldDecl) :
      Scope.fieldMembers (field.moved move) =
        membersRenamed rename (Scope.fieldMembers field) := by
    simp only [Scope.fieldMembers, Syntax.FieldDecl.moved_isEmbedded,
      Syntax.FieldDecl.moved_embeddedName?, Syntax.FieldDecl.moved_names]
    split
    · cases field.embeddedName? <;> rfl
    · simp [membersRenamed, Member.renamed]
  rw [Syntax.fieldsMoved_eq_map, List.flatMap_map]
  simp only [each, membersRenamed, List.map_flatMap]

/-- Members reached several times are ambiguous under new identities as they were before. -/
theorem weighed_renamed
    (rename : Renaming)
    (count : Nat)
    (members : List NamedMember) :
    Scope.weighed count (membersRenamed rename members) =
      membersRenamed rename (Scope.weighed count members) := by
  unfold Scope.weighed
  split
  · rfl
  · simp [membersRenamed, List.flatMap_map, List.map_flatMap, Member.renamed]

/-- The names of members stay the same. -/
theorem memberNames_renamed
    (rename : Renaming)
    (members : List NamedMember) :
    Scope.memberNames (membersRenamed rename members) = Scope.memberNames members := by
  simp [Scope.memberNames, membersRenamed, Function.comp_def]

/-- The method that the members of one name promote, under new identities of packages. -/
theorem promoted?_renamed
    (rename : Renaming)
    (members : List Member) :
    Scope.promoted? (members.map (Member.renamed rename)) =
      (Scope.promoted? members).map (Method.renamed rename) := by
  rcases members with _ | ⟨member, _ | ⟨other, rest⟩⟩
  · rfl
  · cases member with
    | method name signature callable => cases callable <;> rfl
    | field => rfl
  · cases member with
    | method name signature callable => cases callable <;> rfl
    | field => rfl

/-- The methods that a level promotes, under new identities of packages. -/
theorem promotedMethods_renamed
    (rename : Renaming)
    (settled : List String)
    (members : List NamedMember) :
    Scope.promotedMethods settled (membersRenamed rename members) =
      (Scope.promotedMethods settled members).map (Method.renamed rename) := by
  have named (name : String) :
      ((membersRenamed rename members).filter (·.1 == name)).map Prod.snd =
        ((members.filter (·.1 == name)).map Prod.snd).map (Member.renamed rename) := by
    simp [membersRenamed, List.filter_map, Function.comp_def]
  simp only [Scope.promotedMethods, memberNames_renamed, named, promoted?_renamed,
    List.map_filterMap]

section Promotion

variable
  {transfer : Transfer}
  {before after : Scope}
  (moves : transfer.Moves before after)

include moves

/-- The members of a reached type, and the ways that it opens. -/
theorem membersOf
    (table : MethodTable)
    (target : EmbeddedTarget)
    (indirect : Bool) :
    transfer.Gives (Prod.map (membersRenamed transfer.rename) id)
      (before.membersOf table target indirect)
      (after.membersOf (transfer.table table) target indirect) := by
  cases target with
  | errorInterface =>
      apply Carries.answer
      simp only [Prod.map, moves.errorMethods, interfaceMembers_renamed, id_eq]
  | declared name =>
      apply (underlyingOf moves name).sequence
      intro underlying
      have own := declaredMembers_table transfer table name indirect
      cases underlying with
      | interface interface =>
          apply Carries.answer
          simp only [Prod.map, own, InterfaceMethods.renamed, interfaceMembers_renamed, id_eq]
          simp only [membersRenamed, List.map_append]
      | struct file fields =>
          apply Carries.answer
          have ways :
              (Syntax.fieldsMoved (transfer.span file) fields).filterMap
                  (after.fieldWay? indirect) =
                fields.filterMap (before.fieldWay? indirect) := by
            rw [Syntax.fieldsMoved_eq_map, List.filterMap_map]
            exact congrArg (fun way => fields.filterMap way)
              (funext fun field => moves.retraces.fieldWay? _ indirect field)
          simp only [Prod.map, own, ways, id_eq, fieldMembers_moved transfer.rename]
          simp only [membersRenamed, List.map_append]
      | imported path => exact .answer (by simp only [Prod.map, own, id_eq])
      | other => exact .answer (by simp only [Prod.map, own, id_eq])

/-- The members of a level and the ways to the next one. -/
theorem levelMembers
    (table : MethodTable)
    (level : List ReachedType) :
    transfer.Gives (Prod.map (membersRenamed transfer.rename) id)
      (before.levelMembers table level)
      (after.levelMembers (transfer.table table) level) := by
  induction level with
  | nil => exact .answer rfl
  | cons reached rest inductionHypothesis =>
      apply (membersOf moves table reached.target reached.indirect).sequence
      intro ⟨members, ways⟩
      apply inductionHypothesis.map
      intro ⟨others, otherWays⟩
      simp only [Prod.map, id_eq, weighed_renamed]
      simp only [membersRenamed, List.map_append]

/-- The promotion one level further. -/
theorem promoteLevel
    (table : MethodTable)
    (state : PromotionState) :
    transfer.Gives transfer.promotion
      (before.promoteLevel table state)
      (after.promoteLevel (transfer.table table) (transfer.promotion state)) := by
  apply (levelMembers moves table (ReachedType.level state.seen state.ways)).map
  intro ⟨members, ways⟩
  simp only [Prod.map, id_eq, promotion, memberNames_renamed, promotedMethods_renamed,
    MethodSet.renamed_foldl_insert]

/-- The promotion until no way is left. -/
theorem promoteWithin
    (table : MethodTable)
    (levels : Nat) :
    ∀ state : PromotionState,
      transfer.Gives (MethodSet.renamed transfer.rename)
        (before.promoteWithin table levels state)
        (after.promoteWithin (transfer.table table) levels (transfer.promotion state)) := by
  induction levels with
  | zero => exact fun _ => .answer rfl
  | succ levels inductionHypothesis =>
      intro state
      refine Carries.branch Iff.rfl (fun _ => .answer rfl) fun _ => ?_
      apply (promoteLevel moves table state).sequence
      exact inductionHypothesis

/-- The method set of a declared type, or of the pointer to it. -/
theorem concreteMethods
    (table : MethodTable)
    (base : String)
    (pointer : Bool) :
    transfer.Gives (MethodSet.renamed transfer.rename)
      (before.concreteMethods table base pointer)
      (after.concreteMethods (transfer.table table) base pointer) := by
  simp only [Scope.concreteMethods, moves.size]
  exact promoteWithin moves table _ _

/-! ## Symbols -/

omit moves in
/-- The warnings about embedded types from other packages. -/
theorem warnUnpromoted
    (file : FileScope)
    (owner : String)
    (fields : List FieldDecl) :
    transfer.Gives id
      (before.warnUnpromoted file owner fields)
      (after.warnUnpromoted (transfer.file file) owner
        (Syntax.fieldsMoved (transfer.span file) fields)) := by
  induction fields with
  | nil => exact .answer rfl
  | cons field rest inductionHypothesis =>
      obtain ⟨span, names, starred, type⟩ := field
      have quiet :
          transfer.Gives id
            ((Resolve.answer ()).andThen fun _ => before.warnUnpromoted file owner rest)
            ((Resolve.answer ()).andThen fun _ =>
              after.warnUnpromoted (transfer.file file) owner
                (Syntax.fieldsMoved (transfer.span file) rest)) :=
        inductionHypothesis
      have noisy (left right : Warning) :
          transfer.Gives id
            ((Resolve.warn left).andThen fun _ => before.warnUnpromoted file owner rest)
            ((Resolve.warn right).andThen fun _ =>
              after.warnUnpromoted (transfer.file file) owner
                (Syntax.fieldsMoved (transfer.span file) rest)) := by
        apply (Carries.warn rfl left right).andThen
        intro _ _ _
        exact inductionHypothesis
      cases names with
      | cons _ _ => exact quiet
      | nil =>
          cases type with
          | name _ qualifier _ _ _ =>
              cases qualifier with
              | none => exact quiet
              | some qualifier => exact noisy _ _
          | _ => exact quiet

/-- The symbol of a declared type. -/
theorem typeSymbol
    {decl : TypeDecl}
    (declared : decl ∈ before.decls)
    (kind : SymbolKind)
    (methods : MethodSet)
    (isPartial : Bool) :
    transfer.PlacedCounterpart
      (before.typeSymbol decl kind methods isPartial)
      (after.typeSymbol (transfer.decl decl) kind (methods.renamed transfer.rename)
        isPartial) where
  file := transfer.index decl.file
  offset := rfl
  regular := moves.regularDecls decl declared
  symbol :=
    { name := rfl
      package := moves.package
      kind := rfl
      pointer := rfl
      position := ⟨decl.file, decl.offset, rfl, rfl⟩
      declaration := ⟨decl.file, decl.offset, rfl, rfl⟩
      methods := rfl
      isPartial := rfl }

/-- The symbol that what is underneath a declaration makes. -/
theorem underlyingSymbol?
    (table : MethodTable)
    {decl : TypeDecl}
    (declared : decl ∈ before.decls) :
    transfer.Carries (Option.Rel transfer.PlacedCounterpart)
      (before.underlyingSymbol? table decl)
      (after.underlyingSymbol? (transfer.table table) (transfer.decl decl)) := by
  have concrete :
      transfer.Carries (Option.Rel transfer.PlacedCounterpart)
        ((before.concreteMethods table decl.name false).andThen fun methods =>
          .answer (some (before.typeSymbol decl .concrete methods false)))
        ((after.concreteMethods (transfer.table table) decl.name false).andThen fun methods =>
          .answer (some (after.typeSymbol (transfer.decl decl) .concrete methods false))) :=
    (concreteMethods moves table decl.name false).map fun methods =>
      .some (typeSymbol moves declared .concrete methods false)
  apply (underlyingOf moves decl.name).sequence
  intro underlying
  cases underlying with
  | interface interface =>
      exact Carries.branch Iff.rfl (fun _ => .answer .none) fun _ =>
        .answer (.some (typeSymbol moves declared .interface interface.methods interface.isPartial))
  | _ => exact concrete

/-- The symbol that a declaration makes. -/
theorem declSymbol?
    (table : MethodTable)
    {decl : TypeDecl}
    (declared : decl ∈ before.decls) :
    transfer.Carries (Option.Rel transfer.PlacedCounterpart)
      (before.declSymbol? table decl)
      (after.declSymbol? (transfer.table table) (transfer.decl decl)) := by
  have made := underlyingSymbol? moves table declared
  apply Carries.branch Iff.rfl (fun _ => .answer .none)
  intro _
  simp only [decl_type]
  cases decl.spec.type with
  | struct _ fields =>
      exact (warnUnpromoted decl.file decl.name fields).sequence fun _ => made
  | _ => exact made

omit moves in
/-- Symbols that there are beside symbols that there are. -/
theorem forall₂_toList
    {left right : Option PlacedSymbol}
    (related : Option.Rel transfer.PlacedCounterpart left right) :
    List.Forall₂ transfer.PlacedCounterpart left.toList right.toList := by
  cases related with
  | some counterpart => exact .cons counterpart .nil
  | none => exact .nil

/-- The symbols that declarations make. -/
theorem declSymbols
    (table : MethodTable)
    (decls : List TypeDecl)
    (declared : ∀ decl ∈ decls, decl ∈ before.decls) :
    transfer.Carries (List.Forall₂ transfer.PlacedCounterpart)
      (before.declSymbols table decls)
      (after.declSymbols (transfer.table table) (decls.map transfer.decl)) := by
  induction decls with
  | nil => exact .answer .nil
  | cons decl rest inductionHypothesis =>
      obtain ⟨declaredHere, declaredRest⟩ := List.forall_mem_cons.mp declared
      apply (declSymbol? moves table declaredHere).andThen
      intro symbol symbol' counterpart
      apply (inductionHypothesis declaredRest).andThen
      intro others others' counterparts
      exact .answer (List.rel_append (forall₂_toList counterpart) counterparts)

/-- The symbol that a named receiver makes. -/
theorem siteSymbol?
    (table : MethodTable)
    {site : ReceiverSite}
    (regular : transfer.regular site.file.index site.offset) :
    transfer.Carries (Option.Rel transfer.PlacedCounterpart)
      (before.siteSymbol? table site)
      (after.siteSymbol? (transfer.table table) (transfer.site site)) := by
  simp only [Scope.siteSymbol?, Transfer.site, moves.lookup]
  cases before.lookup? site.base with
  | none => exact .answer .none
  | some decl =>
      exact (concreteMethods moves table site.base site.pointer).map fun methods =>
        .some
          { file := transfer.index site.file
            offset := rfl
            regular
            symbol :=
              { name := rfl
                package := moves.package
                kind := rfl
                pointer := rfl
                position := ⟨site.file, site.offset, rfl, rfl⟩
                declaration := ⟨decl.file, decl.offset, rfl, rfl⟩
                methods := rfl
                isPartial := rfl } }

/-- The symbols that named receivers make. -/
theorem siteSymbols
    (table : MethodTable)
    (sites : List ReceiverSite)
    (regular : ∀ site ∈ sites, transfer.regular site.file.index site.offset) :
    transfer.Carries (List.Forall₂ transfer.PlacedCounterpart)
      (before.siteSymbols table sites)
      (after.siteSymbols (transfer.table table) (sites.map transfer.site)) := by
  induction sites with
  | nil => exact .answer .nil
  | cons site rest inductionHypothesis =>
      obtain ⟨regularHere, regularRest⟩ := List.forall_mem_cons.mp regular
      apply (siteSymbol? moves table regularHere).andThen
      intro symbol symbol' counterpart
      apply (inductionHypothesis regularRest).andThen
      intro others others' counterparts
      exact .answer (List.rel_append (forall₂_toList counterpart) counterparts)

omit moves in
/-- Counterparts stand in the order of the symbols that they become. -/
theorem PlacedCounterpart.notAfter
    {first second first' second' : PlacedSymbol}
    (one : transfer.PlacedCounterpart first first')
    (other : transfer.PlacedCounterpart second second') :
    first'.notAfter second' = first.notAfter second := by
  obtain ⟨file, offset, symbol⟩ := first'
  obtain ⟨file', offset', symbol'⟩ := second'
  obtain ⟨rfl, rfl, regular, -⟩ := one
  obtain ⟨rfl, rfl, otherRegular, -⟩ := other
  rw [Bool.eq_iff_iff]
  simp only [PlacedSymbol.notAfter, Bool.or_eq_true, Bool.and_eq_true, decide_eq_true_eq,
    beq_iff_eq]
  refine or_congr_right (and_congr_right fun sameFile => ?_)
  rw [sameFile] at regular ⊢
  exact transfer.ordered regular otherRegular

omit moves in
/-- Counterparts are still counterparts when both lists are put in source order. -/
theorem forall₂_mergeSort
    {symbols symbols' : List PlacedSymbol}
    (counterparts : List.Forall₂ transfer.PlacedCounterpart symbols symbols') :
    List.Forall₂ transfer.PlacedCounterpart
      (symbols.mergeSort PlacedSymbol.notAfter) (symbols'.mergeSort PlacedSymbol.notAfter) := by
  -- Both lists are the sides of one list of pairs, which is sorted by either side.
  have related : ∀ pair ∈ symbols.zip symbols', transfer.PlacedCounterpart pair.1 pair.2 :=
    fun pair member => List.forall₂_zip counterparts member
  let ordered (left right : PlacedSymbol × PlacedSymbol) := left.1.notAfter right.1
  have sameLength := counterparts.length_eq
  have lefts : (symbols.zip symbols').map Prod.fst = symbols := List.map_fst_zip (by omega)
  have rights : (symbols.zip symbols').map Prod.snd = symbols' := List.map_snd_zip (by omega)
  have sortedLefts :=
    calc
      ((symbols.zip symbols').mergeSort ordered).map Prod.fst
          = ((symbols.zip symbols').map Prod.fst).mergeSort PlacedSymbol.notAfter :=
        List.map_mergeSort fun _ _ _ _ => rfl
      _ = symbols.mergeSort PlacedSymbol.notAfter := by rw [lefts]
  have sortedRights :=
    calc
      ((symbols.zip symbols').mergeSort ordered).map Prod.snd
          = ((symbols.zip symbols').map Prod.snd).mergeSort PlacedSymbol.notAfter :=
        List.map_mergeSort fun left inLeft right inRight =>
          ((related left inLeft).notAfter (related right inRight)).symm
      _ = symbols'.mergeSort PlacedSymbol.notAfter := by rw [rights]
  rw [← sortedLefts, ← sortedRights, List.forall₂_map_left_iff, List.forall₂_map_right_iff,
    List.forall₂_same]
  exact fun pair member => related pair (List.mem_mergeSort.mp member)

/-- The symbols of a package in source order. -/
theorem symbols :
    transfer.Carries (List.Forall₂ transfer.Counterpart) before.symbols after.symbols := by
  apply (methodTable moves).andThen
  rintro table _ ⟨rfl, regular⟩
  simp only [moves.decls]
  apply (declSymbols moves table before.decls fun _ member => member).andThen
  intro types types' counterparts
  apply (siteSymbols moves table table.receivers regular).andThen
  intro receivers receivers' others
  apply Carries.answer
  have sorted := forall₂_mergeSort (List.rel_append counterparts others)
  rw [List.forall₂_map_left_iff, List.forall₂_map_right_iff]
  exact sorted.imp fun _ _ counterpart => counterpart.symbol

end Promotion

/-! ## Packages -/

/-- Source files whose declarations are found where they are transferred to. -/
structure CarriesFile
    (transfer : Transfer)
    (file : FileScope) :
    Prop where
  types :
    (transfer.file file).source.types =
      file.source.types.map (Syntax.TypeSpec.moved (transfer.span file))
  funcs :
    (transfer.file file).source.funcs =
      file.source.funcs.map (FuncDecl.moved (transfer.span file))
  regularDecls : ∀ decl ∈ Scope.declsOf file, transfer.regular file.index decl.offset
  regularReceivers : ∀ func ∈ file.source.funcs, transfer.RegularReceiver (file, func)

section Packages

variable
  {transfer : Transfer}

/-- The declarations of a file where they are transferred to. -/
theorem CarriesFile.declsOf
    {file : FileScope}
    (carried : transfer.CarriesFile file) :
    Scope.declsOf (transfer.file file) = (Scope.declsOf file).map transfer.decl := by
  simp only [Scope.declsOf, carried.types, List.filterMap_map, List.map_filterMap]
  refine congrArg (fun make => file.source.types.filterMap make) (funext fun spec => ?_)
  rw [Function.comp_apply]
  cases named : spec.name with
  | none => simp [Syntax.TypeSpec.moved, named]
  | some ident =>
      simp only [Syntax.TypeSpec.moved, named, Option.map_some, Option.bind_some,
        Syntax.Ident.moved]
      split <;> simp [Transfer.decl, Syntax.TypeSpec.moved, Syntax.Ident.moved, Transfer.span, named]

/-- Declarations of different names have different names where they are transferred to. -/
theorem addDecls
    (transfer : Transfer)
    (decls : List TypeDecl) :
    ∀ earlier : List TypeDecl,
      SameOutcome (fun left right => right = left.map transfer.decl)
        (Scope.addDecls earlier decls)
        (Scope.addDecls (earlier.map transfer.decl) (decls.map transfer.decl)) := by
  induction decls with
  | nil => exact fun _ => .ok rfl
  | cons decl rest inductionHypothesis =>
      intro earlier
      have found :
          Scope.findDecl? (earlier.map transfer.decl) decl.name =
            (Scope.findDecl? earlier decl.name).map transfer.decl := by
        simp only [Scope.findDecl?, List.find?_map, Function.comp_def, decl_name]
      simp only [Scope.addDecls, List.map_cons, decl_name, found]
      cases Scope.findDecl? earlier decl.name with
      | some previous => exact .error rfl
      | none =>
          have later := inductionHypothesis (earlier ++ [decl])
          rw [List.map_append] at later
          exact later

/-- Every joined declaration is one of the earlier or one of the later ones. -/
theorem mem_of_addDecls
    {decls : List TypeDecl} :
    ∀ {earlier joined : List TypeDecl}, Scope.addDecls earlier decls = .ok joined →
      ∀ decl ∈ joined, decl ∈ earlier ∨ decl ∈ decls := by
  induction decls with
  | nil =>
      intro earlier joined added decl member
      cases added
      exact .inl member
  | cons first rest inductionHypothesis =>
      intro earlier joined added decl member
      simp only [Scope.addDecls] at added
      split at added
      · cases added
      · rcases inductionHypothesis added decl member with before | later
        · rcases List.mem_append.mp before with inEarlier | isFirst
          · exact .inl inEarlier
          · exact .inr (List.mem_cons.mpr (.inl (List.mem_singleton.mp isFirst)))
        · exact .inr (List.mem_cons_of_mem _ later)

/-- The scope of a package's files where they are transferred to. -/
theorem ofFiles
    (package : PackageId)
    {files : List FileScope}
    (carried : ∀ file ∈ files, transfer.CarriesFile file) :
    SameOutcome transfer.Moves
      (Scope.ofFiles package files)
      (Scope.ofFiles (transfer.rename.package package) (files.map transfer.file)) := by
  have decls :
      (files.map transfer.file).flatMap Scope.declsOf =
        (files.flatMap Scope.declsOf).map transfer.decl := by
    rw [List.flatMap_map, List.map_flatMap, List.flatMap_def, List.flatMap_def]
    exact congrArg List.flatten
      (List.map_congr_left fun file member => (carried file member).declsOf)
  have funcs :
      (files.map transfer.file).flatMap
          (fun file => file.source.funcs.map fun func => (file, func)) =
        (files.flatMap fun file => file.source.funcs.map fun func => (file, func)).map
          fun entry => (transfer.file entry.1, entry.2.moved (transfer.span entry.1)) := by
    rw [List.flatMap_map, List.map_flatMap, List.flatMap_def, List.flatMap_def]
    refine congrArg List.flatten (List.map_congr_left fun file member => ?_)
    rw [(carried file member).funcs, List.map_map, List.map_map]
    rfl
  have added := transfer.addDecls (files.flatMap Scope.declsOf) []
  simp only [Scope.ofFiles, decls]
  cases joined : Scope.addDecls [] (files.flatMap Scope.declsOf) with
  | error _ =>
      rw [joined, List.map_nil] at added
      generalize Scope.addDecls [] ((files.flatMap Scope.declsOf).map transfer.decl) = right
        at added ⊢
      cases added with
      | error sameKind => exact .error sameKind
  | ok kept =>
      rw [joined, List.map_nil] at added
      generalize Scope.addDecls [] ((files.flatMap Scope.declsOf).map transfer.decl) = right
        at added ⊢
      cases added with
      | ok same =>
          subst same
          refine .ok ⟨rfl, rfl, funcs, fun decl member => ?_, fun entry member => ?_⟩
          · rcases mem_of_addDecls joined decl member with inNothing | inFiles
            · exact absurd inNothing List.not_mem_nil
            · obtain ⟨file, inFiles, declared⟩ := List.mem_flatMap.mp inFiles
              have sameFile : decl.file = file := by
                simp only [Scope.declsOf, List.mem_filterMap, Option.bind_eq_some_iff] at declared
                obtain ⟨spec, _, ident, _, made⟩ := declared
                split at made <;> cases made
                rfl
              rw [sameFile]
              exact (carried file inFiles).regularDecls decl declared
          · obtain ⟨file, inFiles, listed⟩ := List.mem_flatMap.mp member
            obtain ⟨func, isFunc, rfl⟩ := List.mem_map.mp listed
            exact (carried file inFiles).regularReceivers func isFunc

/-- The symbols of a package are the counterparts of those that it had before. -/
theorem resolvePackage
    (package : PackageId)
    {files : List FileScope}
    (carried : ∀ file ∈ files, transfer.CarriesFile file) :
    SameOutcome (fun left right => List.Forall₂ transfer.Counterpart left.1 right.1)
      (resolvePackage package files)
      (resolvePackage (transfer.rename.package package) (files.map transfer.file)) := by
  apply (ofFiles package carried).bind
  intro before after moves
  have abreast := symbols moves .initial .initial (.initial _)
  generalize before.symbols .initial = left at abreast ⊢
  generalize after.symbols .initial = right at abreast ⊢
  cases abreast with
  | answered counterparts _ => exact .ok counterparts
  | failed sameKind _ _ => exact .error sameKind

end Packages

end Transfer

end Implementers
