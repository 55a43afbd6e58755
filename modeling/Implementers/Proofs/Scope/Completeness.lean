import Implementers.Proofs.Scope.Origin
import Implementers.Proofs.Syntax.Completeness

namespace Implementers

/-!
# Texts without faults are not said to lack anything

One of the errors of a package says that a construct lacks a part.  Only what lacks a part indeed
gives rise to it, when a type is lowered, a list of parameters, fields or the elements of an
interface, or when it is asked what is underneath a name.  What is read from texts that parse
without a fault lacks nothing, so that no question about them ends with that error.
-/

open Syntax (Elem FieldDecl Ident Param ParamList Parse SourceFile TypeExpr)

/-- Whether an error says that a construct lacks a part. -/
def UnitError.LacksPart
    (error : UnitError) :
    Prop :=
  ∃ position part, error = .invalidSource position ("missing " ++ part)

namespace UnitError

theorem not_lacksPart_undefined
    (position : Position)
    (name : String) :
    ¬LacksPart (.undefined position name) :=
  nofun

theorem not_lacksPart_recursiveType
    (position : Position)
    (name : String) :
    ¬LacksPart (.recursiveType position name) :=
  nofun

theorem not_lacksPart_duplicateMethod
    (position : Position)
    (method : String) :
    ¬LacksPart (.duplicateMethod position method) :=
  nofun

/-- A list whose last names have no type is mixed, and nothing is said to be missing. -/
theorem not_lacksPart_mixed
    (position : Position) :
    ¬LacksPart (.invalidSource position "mixed named and unnamed parameters") := by
  rintro ⟨_, part, same⟩
  have sameText := congrArg String.toList (UnitError.invalidSource.inj same).2
  rw [String.toList_append] at sameText
  simp at sameText

end UnitError

/-- A resolution that never ends with the error that a part is missing, wherever it starts. -/
def Resolve.LacksNothing
    (resolution : Resolve α) :
    Prop :=
  ∀ state error, (resolution state).1 = .error error → ¬error.LacksPart

namespace Resolve.LacksNothing

theorem answer
    (value : α) :
    (Resolve.answer value).LacksNothing :=
  nofun

theorem fail
    {error : UnitError}
    (other : ¬error.LacksPart) :
    (Resolve.fail error : Resolve α).LacksNothing := by
  intro _ _ failed
  cases failed
  exact other

theorem warn
    (warning : Warning) :
    (Resolve.warn warning).LacksNothing :=
  nofun

theorem andThen
    {first : Resolve α}
    {next : α → Resolve β}
    (lacksNothing : first.LacksNothing)
    (lacksNothingNext : ∀ value, (next value).LacksNothing) :
    (first.andThen next).LacksNothing := by
  intro state error failed
  cases ran : first state with
  | mk outcome after =>
      cases outcome with
      | ok value =>
          simp only [Resolve.andThen, ran] at failed
          exact lacksNothingNext value after error failed
      | error found =>
          simp only [Resolve.andThen, ran] at failed
          cases failed
          exact lacksNothing state error (congrArg Prod.fst ran)

theorem ofExcept
    {known : Except UnitError α}
    (other : ∀ error, known = .error error → ¬error.LacksPart) :
    (Resolve.ofExcept known).LacksNothing := by
  cases known with
  | ok value => exact answer value
  | error error => exact fail (other error rfl)

/-- Looking into an alias adds the error that it leads back to itself and no other one. -/
theorem expanding
    {decl : TypeDecl}
    {inside : Resolve α}
    (lacksNothing : inside.LacksNothing) :
    (Resolve.expanding decl inside).LacksNothing := by
  intro state error failed
  simp only [Resolve.expanding] at failed
  split at failed
  · cases failed
    exact UnitError.not_lacksPart_recursiveType _ _
  · exact lacksNothing _ error failed

/-- So does a search for what is underneath a name. -/
theorem finding
    {decl : TypeDecl}
    {inside : Resolve Underlying}
    (lacksNothing : inside.LacksNothing) :
    (Resolve.finding decl inside).LacksNothing := by
  intro state error failed
  simp only [Resolve.finding] at failed
  split at failed
  · cases failed
  · split at failed
    · cases failed
      exact UnitError.not_lacksPart_recursiveType _ _
    · split at failed
      · cases failed
      · next ran =>
          cases failed
          exact lacksNothing _ _ (congrArg Prod.fst ran)

end Resolve.LacksNothing

namespace Scope

/-! ## Methods of interfaces -/

/-- A method that cannot be added to a set is in it with another signature. -/
theorem not_lacksPart_addMethod
    {position : Position}
    {set : MethodSet}
    {method : Method}
    {error : UnitError}
    (failed : addMethod position set method = .error error) :
    ¬error.LacksPart := by
  unfold addMethod at failed
  split at failed
  · cases failed
  · split at failed
    · cases failed
    · cases failed
      exact UnitError.not_lacksPart_duplicateMethod _ _

theorem not_lacksPart_addMethods
    {position : Position}
    {error : UnitError}
    (methods : List Method) :
    ∀ {set : MethodSet}, addMethods position set methods = .error error → ¬error.LacksPart := by
  induction methods with
  | nil => exact nofun
  | cons method rest inductionHypothesis =>
      intro set failed
      simp only [addMethods] at failed
      split at failed
      · exact inductionHypothesis failed
      · next failedFirst =>
          cases failed
          exact not_lacksPart_addMethod failedFirst

theorem not_lacksPart_embed
    {position : Position}
    {own inner : InterfaceMethods}
    {error : UnitError}
    (failed : embed position own inner = .error error) :
    ¬error.LacksPart := by
  unfold embed at failed
  split at failed
  · cases failed
  · next failedMethods =>
      cases failed
      exact not_lacksPart_addMethods _ failedMethods

end Scope

/-! ## Fields -/

namespace Syntax.FieldDecl.IsComplete

variable
  {span : Span}
  {names : List Ident}
  {starred : Bool}
  {type : TypeExpr}

/-- A field declaration that lacks nothing has its type. -/
theorem isType
    (isComplete : FieldDecl.IsComplete (.mk span names starred type)) :
    type.IsComplete := by
  cases isComplete with
  | named _ isType => exact isType
  | embedded isType => exact isType

/-- An embedded field that lacks nothing goes by the name of its type. -/
theorem exists_embeddedName
    (isComplete : FieldDecl.IsComplete (.mk span names starred type))
    (isEmbedded : names.isEmpty = true) :
    ∃ name, (FieldDecl.mk span names starred type).embeddedName? = some name := by
  cases isComplete with
  | named isNamed _ => exact absurd (List.isEmpty_iff.mp isEmbedded) isNamed
  | embedded _ => exact ⟨_, rfl⟩

end Syntax.FieldDecl.IsComplete

/-! ## Lowering -/

/-- Declared names mean nothing that could be said to lack a part. -/
structure Meaning.LacksNothing
    (scope : Scope)
    (meaning : Meaning) :
    Prop where
  typeOfAlias : ∀ decl ∈ scope.decls, (meaning.typeOfAlias decl).LacksNothing
  underlying : ∀ decl ∈ scope.decls, (meaning.underlying decl).LacksNothing

namespace Resolve.LacksNothing

section Lowering

variable
  (scope : Scope)
  {meaning : Meaning}
  (ofMeaning : meaning.LacksNothing scope)
  (file : FileScope)

theorem undeclaredType
    (ident : Ident)
    (args : List Ty) :
    (Scope.undeclaredType file ident args).LacksNothing := by
  unfold Scope.undeclaredType
  split
  · exact .answer _
  · exact .answer _
  · exact .answer _
  · split
    · exact .answer _
    · split
      · exact .answer _
      · exact .fail (UnitError.not_lacksPart_undefined _ _)

theorem undeclaredUnderlying
    (ident : Ident) :
    (scope.undeclaredUnderlying file ident).LacksNothing := by
  unfold Scope.undeclaredUnderlying
  split
  · exact .answer _
  · exact .answer _
  · exact .answer _
  · split
    · exact .answer _
    · split
      · exact .answer _
      · exact .fail (UnitError.not_lacksPart_undefined _ _)

theorem contribution
    (span : Syntax.Span)
    (position : Position)
    (underlying : Underlying) :
    (Scope.contribution file span position underlying).LacksNothing := by
  cases underlying with
  | imported path => exact .andThen (.warn _) fun _ => .answer _
  | _ => exact .answer _

include ofMeaning

theorem namedType
    (qualifier : Option Ident)
    (ident : Ident)
    (args : List Ty) :
    (scope.namedType meaning file qualifier ident args).LacksNothing := by
  unfold Scope.namedType
  split
  · split
    · exact .answer _
    · exact .fail (UnitError.not_lacksPart_undefined _ _)
  · split
    · next found =>
        split
        · exact ofMeaning.typeOfAlias _ (List.mem_of_find?_eq_some found)
        · exact .answer _
    · exact undeclaredType file ident args

theorem plainNameUnderlying
    (span : Syntax.Span)
    (qualifier : Option Ident)
    (ident : Ident) :
    (scope.plainNameUnderlying meaning file span qualifier (some ident)).LacksNothing := by
  unfold Scope.plainNameUnderlying
  split
  · next noIdent => cases noIdent
  · split
    · split
      · exact .answer _
      · exact .fail (UnitError.not_lacksPart_undefined _ _)
    · split
      · next found => exact ofMeaning.underlying _ (List.mem_of_find?_eq_some found)
      · exact undeclaredUnderlying scope file _

set_option linter.unusedSectionVars false in
mutual

/-- A type expression that lacks nothing is not said to, when it is lowered. -/
theorem lowerTypeWith :
    ∀ expr : TypeExpr, expr.IsComplete → (scope.lowerTypeWith meaning file expr).LacksNothing
  | .missing _, isComplete => nomatch isComplete
  | .name _ _ none _ _, isComplete => nomatch isComplete
  | .name _ qualifier (some ident) _ args, .name areArgs =>
      .andThen (lowerTypesWith args areArgs) fun lowered =>
        namedType scope ofMeaning file qualifier ident lowered
  | .pointer _ elem, .pointer isElem => .andThen (lowerTypeWith elem isElem) fun _ => .answer _
  | .slice _ elem, .slice isElem => .andThen (lowerTypeWith elem isElem) fun _ => .answer _
  | .array _ _ elem, .array isElem => .andThen (lowerTypeWith elem isElem) fun _ => .answer _
  | .map _ key value, .map isKey isValue =>
      .andThen (lowerTypeWith key isKey) fun _ =>
        .andThen (lowerTypeWith value isValue) fun _ => .answer _
  | .chan _ _ elem, .chan isElem => .andThen (lowerTypeWith elem isElem) fun _ => .answer _
  | .func _ params result, .func areParams isResult =>
      .andThen (lowerParamListWith params areParams) fun _ =>
        .andThen (lowerResultWith result isResult) fun _ => .answer _
  | .struct _ fields, .struct areFields =>
      .andThen (lowerFieldsWith fields areFields) fun _ => .answer _
  | .interface _ elems, .interface areElems =>
      .andThen (interfaceMethodsWith [] {} elems areElems) fun _ => .answer _
  | .paren _ inner, .paren isInner => lowerTypeWith inner isInner

/-- Nor are type expressions in a list. -/
theorem lowerTypesWith :
    ∀ types : List TypeExpr, (∀ type ∈ types, type.IsComplete) →
      (scope.lowerTypesWith meaning file types).LacksNothing
  | [], _ => .answer _
  | first :: rest, areTypes => by
      obtain ⟨isFirst, areRest⟩ := List.forall_mem_cons.mp areTypes
      exact .andThen (lowerTypeWith first isFirst) fun _ =>
        .andThen (lowerTypesWith rest areRest) fun _ => .answer _

/-- Field declarations that lack nothing have their types, and names if they are embedded. -/
theorem lowerFieldsWith :
    ∀ fields : List FieldDecl, (∀ field ∈ fields, field.IsComplete) →
      (scope.lowerFieldsWith meaning file fields).LacksNothing
  | [], _ => .answer _
  | .mk span names starred type :: rest, areFields => by
      obtain ⟨isField, areRest⟩ := List.forall_mem_cons.mp areFields
      refine .andThen (lowerTypeWith type isField.isType) fun lowered => ?_
      have others (declared : List StructField) :
          ((scope.lowerFieldsWith meaning file rest).andThen fun others =>
            .answer (declared ++ others)).LacksNothing :=
        .andThen (lowerFieldsWith rest areRest) fun _ => .answer _
      split
      · next isEmbedded =>
          obtain ⟨name, isName⟩ := isField.exists_embeddedName isEmbedded
          rw [isName]
          exact others _
      · exact others _

/-- A parameter list that lacks nothing is lowered entry by entry. -/
theorem lowerParamListWith :
    ∀ params : ParamList, params.IsComplete →
      (scope.lowerParamListWith meaning file params).LacksNothing
  | .absent, _ => .answer _
  | .list span params, .list areParams => lowerParamsWith span _ 0 params areParams

/-- Parameter entries have their types; names that wait for one are not said to lack it. -/
theorem lowerParamsWith
    (list : Syntax.Span)
    (grouped : Bool)
    (pending : Nat) :
    ∀ params : List Param, (∀ param ∈ params, param.IsComplete) →
      (scope.lowerParamsWith meaning file list grouped pending params).LacksNothing
  | [], _ => by
      simp only [Scope.lowerParamsWith]
      split
      · exact .answer _
      · exact .fail (UnitError.not_lacksPart_mixed _)
  | .mk _ name variadic type :: rest, areParams => by
      obtain ⟨⟨isType⟩, areRest⟩ := List.forall_mem_cons.mp areParams
      simp only [Scope.lowerParamsWith]
      split
      · exact lowerParamsWith list grouped (pending + 1) rest areRest
      · exact .andThen (lowerTypeWith type isType) fun _ =>
          .andThen (lowerParamsWith list grouped 0 rest areRest) fun _ => .answer _

/-- Results that lack nothing have their type or their list. -/
theorem lowerResultWith :
    ∀ result : Syntax.Result, result.IsComplete →
      (scope.lowerResultWith meaning file result).LacksNothing
  | .absent, _ => .answer _
  | .single type, .single isType => .andThen (lowerTypeWith type isType) fun _ => .answer _
  | .list params, .list areParams => .andThen (lowerParamListWith params areParams) fun _ => .answer _

/-- Elements of an interface that lack nothing have their names and signatures, or their types. -/
theorem interfaceMethodsWith
    (explicit : List String)
    (own : InterfaceMethods) :
    ∀ elems : List Elem, (∀ elem ∈ elems, elem.IsComplete) →
      (scope.interfaceMethodsWith meaning file explicit own elems).LacksNothing
  | [], _ => .answer _
  | .method _ none _ _ :: _, areElems => nomatch areElems _ List.mem_cons_self
  | .method _ (some name) params result :: rest, areElems => by
      obtain ⟨isMethod, areRest⟩ := List.forall_mem_cons.mp areElems
      obtain ⟨areParams, isResult⟩ := isMethod
      simp only [Scope.interfaceMethodsWith]
      split
      · exact interfaceMethodsWith explicit own rest areRest
      · split
        · exact .fail (UnitError.not_lacksPart_duplicateMethod _ _)
        · exact .andThen (lowerParamListWith params areParams) fun _ =>
            .andThen (lowerResultWith result isResult) fun _ =>
              .andThen (.ofExcept fun _ failed => Scope.not_lacksPart_addMethod failed)
                fun methods => interfaceMethodsWith _ { own with methods } rest areRest
  | .embedded span type :: rest, areElems => by
      obtain ⟨isEmbedded, areRest⟩ := List.forall_mem_cons.mp areElems
      have isType : type.IsComplete := by
        cases isEmbedded with
        | embedded isType => exact isType
      have embedded :=
        andThen (embeddedMethodsWith (file.position span.start) type isType) fun inner =>
          andThen (ofExcept fun _ failed =>
            @Scope.not_lacksPart_embed (file.position span.start) own inner _ failed) fun joined =>
              interfaceMethodsWith explicit joined rest areRest
      cases type with
      | missing _ => exact nomatch isType
      | _ => exact embedded
  | .typeSet _ :: rest, areElems =>
      interfaceMethodsWith explicit { own with isConstraint := true } rest
        (List.forall_mem_cons.mp areElems).2

/-- An embedded type that lacks nothing is not said to. -/
theorem embeddedMethodsWith
    (position : Position) :
    ∀ expr : TypeExpr, expr.IsComplete →
      (scope.embeddedMethodsWith meaning file position expr).LacksNothing
  | .missing _, isComplete => nomatch isComplete
  | .paren _ inner, .paren isInner => embeddedMethodsWith position inner isInner
  | .interface _ elems, .interface areElems => interfaceMethodsWith [] {} elems areElems
  | .name _ _ none _ _, isComplete => nomatch isComplete
  | .name span qualifier (some ident) hasArgs _, _ => by
      simp only [Scope.embeddedMethodsWith]
      split
      · exact .answer _
      · exact .andThen (plainNameUnderlying scope ofMeaning file span qualifier ident) fun found =>
          contribution file span position found
  | .pointer _ _, _ => .answer _
  | .slice _ _, _ => .answer _
  | .array _ _ _, _ => .answer _
  | .map _ _ _, _ => .answer _
  | .chan _ _ _, _ => .answer _
  | .func _ _ _, _ => .answer _
  | .struct _ _, _ => .answer _

end

/-- What is underneath a type expression that is lowered for its errors only. -/
theorem lowered
    {expr : TypeExpr}
    (isComplete : expr.IsComplete) :
    ((scope.lowerTypeWith meaning file expr).andThen fun _ =>
      .answer Underlying.other).LacksNothing :=
  .andThen (lowerTypeWith scope ofMeaning file expr isComplete) fun _ => .answer _

/-- What is underneath a type expression that lacks nothing. -/
theorem underlyingWith :
    ∀ expr : TypeExpr, expr.IsComplete → (scope.underlyingWith meaning file expr).LacksNothing
  | .missing _, isComplete => by cases isComplete
  | .name span qualifier ident hasArgs args, isComplete => by
      simp only [Scope.underlyingWith]
      split
      · exact lowered scope ofMeaning file isComplete
      · cases isComplete with
        | name _ => exact plainNameUnderlying scope ofMeaning file span qualifier _
  | .paren _ inner, isComplete => by
      cases isComplete with
      | paren isInner => exact underlyingWith inner isInner
  | .interface _ elems, isComplete => by
      cases isComplete with
      | interface areElems =>
          exact .andThen (interfaceMethodsWith scope ofMeaning file [] {} elems areElems)
            fun _ => .answer _
  | .struct _ fields, isComplete => by
      cases isComplete with
      | struct areFields =>
          exact .andThen (lowerFieldsWith scope ofMeaning file fields areFields) fun _ => .answer _
  | .pointer _ _, isComplete => lowered scope ofMeaning file isComplete
  | .slice _ _, isComplete => lowered scope ofMeaning file isComplete
  | .array _ _ _, isComplete => lowered scope ofMeaning file isComplete
  | .map _ _ _, isComplete => lowered scope ofMeaning file isComplete
  | .chan _ _ _, isComplete => lowered scope ofMeaning file isComplete
  | .func _ _ _, isComplete => lowered scope ofMeaning file isComplete

end Lowering

end Resolve.LacksNothing

/-! ## Packages -/

/-- A file as it is read from a text that parses without a fault. -/
structure FileScope.IsFaultless
    (file : FileScope) :
    Prop where
  clean : (Parse.ofText file.text).errors = []
  read : file.source = SourceFile.ofTree (Parse.ofText file.text).tree

/-- The source of a faultless file lacks nothing. -/
theorem FileScope.IsFaultless.isComplete
    {file : FileScope}
    (faultless : file.IsFaultless) :
    file.source.IsComplete :=
  faultless.read ▸ (Parse.isComplete_ofText faultless.clean).2

namespace PackageFile

/-- A text that is accepted parses without a fault. -/
theorem isFaultless_of_ofText
    {path : Path}
    {text : String}
    {source : PackageFile}
    (accepted : ofText path text = .ok source)
    (index : Nat) :
    (FileScope.ofSource index source.path source.text source.source).IsFaultless := by
  unfold ofText at accepted
  dsimp only at accepted
  split at accepted
  · cases accepted
  · next clean =>
      split at accepted
      · cases accepted
      · cases accepted
        exact ⟨clean, rfl⟩

/-- A text that parses without a fault is accepted if it names a package. -/
theorem ofText_eq_ok
    (path : Path)
    {text : String}
    {name : Ident}
    (clean : (Parse.ofText text).errors = [])
    (named : (SourceFile.ofTree (Parse.ofText text).tree).package = some name) :
    ofText path text = .ok ⟨name.text, path, text, .ofTree (Parse.ofText text).tree⟩ := by
  unfold ofText
  generalize Parse.ofText text = parse at clean named ⊢
  dsimp only
  rw [clean, named]

/-- The files of the packages of texts that are accepted are faultless. -/
theorem isFaultless_scopesOf
    {texts : List (Path × String)}
    {sources : List PackageFile}
    (accepted : ofTexts texts = .ok sources)
    (package : String) :
    ∀ file ∈ scopesOf sources package, file.IsFaultless := by
  intro file member
  obtain ⟨source, isSource, place, rfl⟩ := exists_of_mem_scopes _ member
  have inSources := (List.mem_filter.mp isSource).1
  obtain ⟨entry, _, ofEntry⟩ := ofTexts_ok texts accepted source inSources
  exact isFaultless_of_ofText ofEntry place

end PackageFile

namespace Scope

/-- Every declaration of a package lacks nothing. -/
def IsComplete
    (scope : Scope) :
    Prop :=
  ∀ decl ∈ scope.decls, decl.spec.IsComplete

/-- The declarations of a package are those of its files. -/
theorem isComplete_of_ofFiles
    {package : PackageId}
    {files : List FileScope}
    {scope : Scope}
    (faultless : ∀ file ∈ files, file.IsFaultless)
    (isScope : ofFiles package files = .ok scope) :
    scope.IsComplete := by
  obtain ⟨rfl, _⟩ := ofFiles_ok.mp isScope
  intro decl member
  obtain ⟨inFiles, inTypes⟩ := written_of_mem_decls member
  exact (faultless decl.file inFiles).isComplete.areTypes decl.spec inTypes

variable
  {scope : Scope}
  (isComplete : scope.IsComplete)

include isComplete

/-- Declared names mean nothing that lacks a part, however deep they are looked into. -/
theorem lacksNothing_meaning
    (depth : Nat) :
    (scope.meaning depth).LacksNothing scope := by
  induction depth with
  | zero =>
      exact ⟨fun _ _ => .fail (UnitError.not_lacksPart_recursiveType _ _),
        fun _ _ => .fail (UnitError.not_lacksPart_recursiveType _ _)⟩
  | succ depth inner =>
      constructor
      · intro decl member
        exact .expanding (.lowerTypeWith scope inner decl.file _ (isComplete decl member).isType)
      · intro decl member
        have inside := Resolve.LacksNothing.underlyingWith scope inner decl.file _
          (isComplete decl member).isType
        simp only [Scope.meaning]
        split
        · exact .expanding inside
        · exact .finding inside

theorem lacksNothing_declMeaning :
    scope.declMeaning.LacksNothing scope :=
  lacksNothing_meaning isComplete _

/-- What is underneath a name is never found to lack a part. -/
theorem lacksNothing_underlyingOf
    (name : String) :
    (scope.underlyingOf name).LacksNothing := by
  unfold Scope.underlyingOf
  split
  · next found =>
      exact (lacksNothing_declMeaning isComplete).underlying _ (List.mem_of_find?_eq_some found)
  · exact .answer _

end Scope

/--
Whatever is read from a text that parses without a fault lacks no part, and in a package of such
texts no question about names, types, parameters, fields or elements ends with the error that a part
is missing.  The files of the packages that are made of texts are such files whenever all the texts
are accepted.
-/
theorem lacksNothing_of_faultless :
    (∀ text, (Parse.ofText text).errors = [] →
      (∀ part, Parse.Holds text part → part.IsComplete) ∧
        (SourceFile.ofTree (Parse.ofText text).tree).IsComplete) ∧
      (∀ package files scope,
        (∀ file ∈ files, FileScope.IsFaultless file) → Scope.ofFiles package files = .ok scope →
          (∀ name, (scope.underlyingOf name).LacksNothing) ∧
          ∀ file ∈ files,
            (∀ type, Parse.Holds file.text (.type type) →
              (scope.lowerType file type).LacksNothing) ∧
            (∀ params, Parse.Holds file.text (.params params) →
              (scope.lowerParamListWith scope.declMeaning file params).LacksNothing) ∧
            (∀ span fields, Parse.Holds file.text (.type (.struct span fields)) →
              (scope.lowerFieldsWith scope.declMeaning file fields).LacksNothing) ∧
            ∀ span elems, Parse.Holds file.text (.type (.interface span elems)) →
              (scope.interfaceMethods file elems).LacksNothing) ∧
      ∀ texts sources, PackageFile.ofTexts texts = .ok sources →
        ∀ package, ∀ file ∈ PackageFile.scopesOf sources package, file.IsFaultless := by
  refine ⟨fun text clean => Parse.isComplete_ofText clean, ?_,
    fun _ _ accepted package => PackageFile.isFaultless_scopesOf accepted package⟩
  intro package files scope faultless isScope
  have isComplete := Scope.isComplete_of_ofFiles faultless isScope
  have meaning := Scope.lacksNothing_declMeaning isComplete
  refine ⟨Scope.lacksNothing_underlyingOf isComplete, fun file inFiles => ?_⟩
  have held : ∀ part, Parse.Holds file.text part → part.IsComplete :=
    (Parse.isComplete_ofText (faultless file inFiles).clean).1
  refine ⟨fun type holds => ?_, fun params holds => ?_, fun span fields holds => ?_,
    fun span elems holds => ?_⟩
  · exact .lowerTypeWith scope meaning file type (held _ holds)
  · exact .lowerParamListWith scope meaning file params (held _ holds)
  · have isStruct : (TypeExpr.struct span fields).IsComplete := held _ holds
    cases isStruct with
    | struct areFields => exact .lowerFieldsWith scope meaning file fields areFields
  · have isInterface : (TypeExpr.interface span elems).IsComplete := held _ holds
    cases isInterface with
    | interface areElems => exact .interfaceMethodsWith scope meaning file [] {} elems areElems

namespace Faultless

/-- A text with a struct that embeds a pointer and an interface with a method. -/
def text : String :=
  "package p\n\ntype T struct \x7b *I; next *T \x7d\n\ntype I interface \x7b M(t T) T \x7d\n"

/-- The file of the text. -/
def file : FileScope :=
  .ofSource 0 ⟨"p/a.go"⟩ text (.ofTree (Parse.ofText text).tree)

/-- The trees three levels below the root of a tree, where the types of declarations are. -/
def thirdLevel
    (tree : Syntax.Tree) :
    List Syntax.Tree :=
  (tree.children.flatMap Syntax.Tree.children).flatMap Syntax.Tree.children

theorem isWithin_of_mem_thirdLevel
    {inner tree : Syntax.Tree}
    (member : inner ∈ thirdLevel tree) :
    inner.IsWithin tree := by
  obtain ⟨second, inFirst, inSecond⟩ := List.mem_flatMap.mp member
  obtain ⟨first, inTree, below⟩ := List.mem_flatMap.mp inFirst
  exact .inside inTree (.inside below (.inside inSecond .itself))

/--
The text is accepted and makes a package, and a type that it holds is lowered without a part missing.
-/
theorem lacksNothing_file :
    (SourceFile.ofTree (Parse.ofText text).tree).IsComplete ∧
      (PackageFile.ofTexts [(⟨"p/a.go"⟩, text)]).map (PackageFile.scopesOf · "p") = .ok [file] ∧
      ∃ scope, Scope.ofFiles ⟨⟨"p"⟩, "p"⟩ [file] = .ok scope ∧
        (∀ name, (scope.underlyingOf name).LacksNothing) ∧
          ∃ type, Parse.Holds text (.type type) ∧ (scope.lowerType file type).LacksNothing := by
  have clean : (Parse.ofText text).errors = [] := by decide +kernel
  have makes : (Scope.ofFiles ⟨⟨"p"⟩, "p"⟩ [file]).isOk = true := by decide +kernel
  have reads : (thirdLevel (Parse.ofText text).tree).any
      (fun inner => inner.part.type?.isSome) = true := by
    decide +kernel
  obtain ⟨inner, isInner, isType⟩ := List.any_eq_true.mp reads
  obtain ⟨type, isRead⟩ := Option.isSome_iff_exists.mp isType
  have isPart : inner.part = .type type := by
    cases part : inner.part <;> rw [part] at isRead <;> cases isRead
    rfl
  have holds : Parse.Holds text (.type type) :=
    ⟨inner, isWithin_of_mem_thirdLevel isInner, isPart⟩
  have named : (SourceFile.ofTree (Parse.ofText text).tree).package.map Ident.text = some "p" := by
    decide +kernel
  obtain ⟨name, isName, spelled⟩ := Option.map_eq_some_iff.mp named
  have accepted : PackageFile.ofTexts [(⟨"p/a.go"⟩, text)] =
      .ok [⟨"p", ⟨"p/a.go"⟩, text, .ofTree (Parse.ofText text).tree⟩] := by
    simp only [PackageFile.ofTexts, PackageFile.ofText_eq_ok ⟨"p/a.go"⟩ clean isName, spelled, bind,
      Except.bind, pure, Except.pure]
  have ofPackage : PackageFile.scopesOf
      [⟨"p", ⟨"p/a.go"⟩, text, .ofTree (Parse.ofText text).tree⟩] "p" = [file] := by
    simp only [PackageFile.scopesOf, beq_self_eq_true, List.filter_cons_of_pos, List.filter_nil]
    rfl
  have faultless : ∀ other ∈ [file], other.IsFaultless :=
    ofPackage ▸ lacksNothing_of_faultless.2.2 _ _ accepted "p"
  obtain ⟨scope, isScope⟩ := exists_ok_of_isOk makes
  obtain ⟨known, lowered⟩ := lacksNothing_of_faultless.2.1 _ [file] scope faultless isScope
  refine ⟨(lacksNothing_of_faultless.1 text clean).2, ?_, scope, isScope, known, type, holds,
    (lowered file List.mem_cons_self).1 type holds⟩
  rw [accepted, Except.map, ofPackage]

end Faultless

end Implementers
