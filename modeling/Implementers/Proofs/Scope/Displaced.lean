import Implementers.Proofs.Scope.Sources
import Implementers.Proofs.Syntax.Displacement
import Mathlib.Order.Monotone.Basic

namespace Implementers

/-!
# Texts exchanged for texts that declare the same

A text may be exchanged for another one that declares the same at other offsets, which stay in their
order.  The packages that its file belongs to then have the same symbols at other places in this
file, or an error of the same kind, and so does every unit that reads it.
-/

open Syntax (Ident ImportSpec SourceFile Span SyntaxError)

/-! ## Identities that are kept -/

mutual

/-- Types stay the same where every package keeps its identity. -/
theorem Ty.renamed_keep : ∀ type : Ty, type.renamed .keep = type
  | .named owner name args => by
      rw [Ty.renamed, Ty.listRenamed_keep]
      cases owner <;> rfl
  | .pointer elem | .slice elem | .array _ elem | .chan _ elem => by
      rw [Ty.renamed, elem.renamed_keep]
  | .map key value => by rw [Ty.renamed, key.renamed_keep, value.renamed_keep]
  | .func signature => by rw [Ty.renamed, signature.renamed_keep]
  | .struct fields => by rw [Ty.renamed, StructField.listRenamed_keep]
  | .interface methods => by rw [Ty.renamed, methods.renamed_keep]

theorem Ty.listRenamed_keep : ∀ types : List Ty, Ty.listRenamed .keep types = types
  | [] => rfl
  | first :: rest => by rw [Ty.listRenamed, first.renamed_keep, Ty.listRenamed_keep]

theorem Signature.renamed_keep : ∀ signature : Signature, signature.renamed .keep = signature
  | .mk params results _ => by
      rw [Signature.renamed, Ty.listRenamed_keep, Ty.listRenamed_keep]

theorem StructField.listRenamed_keep :
    ∀ fields : List StructField, StructField.listRenamed .keep fields = fields
  | [] => rfl
  | .mk _ type _ :: rest => by
      rw [StructField.listRenamed, type.renamed_keep, StructField.listRenamed_keep]

theorem Method.listRenamed_keep :
    ∀ methods : List Method, Method.listRenamed .keep methods = methods
  | [] => rfl
  | .mk name signature :: rest => by
      have sameName : name.renamed .keep = name := by
        rw [MethodName.renamed]
        exact congrArg (MethodName.mk name.name) (congrFun Option.map_id_fun name.package)
      rw [Method.listRenamed, signature.renamed_keep, Method.listRenamed_keep, sameName]

/-- Methods stay the same where every package keeps its identity. -/
theorem MethodSet.renamed_keep : ∀ methods : MethodSet, methods.renamed .keep = methods
  | .mk methods => by rw [MethodSet.renamed, Method.listRenamed_keep]

end

/-! ## Exchanged files -/

/-- A text that has the same faults as another one and declares the same at offsets in their order. -/
def Syntax.Parse.DeclaresAlike
    (text other : String) :
    Prop :=
  ∃ shift : Nat → Nat, StrictMono shift ∧
    (ofText other).errors.map SyntaxError.fault = (ofText text).errors.map SyntaxError.fault ∧
    SourceFile.ofTree (ofText other).tree =
      (SourceFile.ofTree (ofText text).tree).moved (Span.shifted shift)

/-- The declarations of a source file stay where nothing is moved. -/
theorem Syntax.SourceFile.moved_id
    (file : SourceFile) :
    file.moved id = file := by
  have same {α : Type} {move : α → α} (stays : ∀ value, move value = value) : move = id :=
    funext stays
  have idents : Ident.moved id = id := same Ident.moved_id
  have imports : ImportSpec.moved id = id := same fun spec => by simp [ImportSpec.moved, idents]
  simp [moved, idents, imports, same Syntax.TypeSpec.moved_id, same Syntax.FuncDecl.moved_id]

/-- A text declares the same as itself. -/
theorem Syntax.Parse.DeclaresAlike.refl
    (text : String) :
    Parse.DeclaresAlike text text :=
  ⟨id, strictMono_id, rfl, (SourceFile.moved_id _).symm⟩

namespace PackageFile

/-- A source file with another text, which declares the same at offsets in their order. -/
def Displaced
    (before after : PackageFile) :
    Prop :=
  ∃ (shift : Nat → Nat) (text : String), StrictMono shift ∧
    after = { before with text, source := before.source.moved (Span.shifted shift) }

/-- Texts that declare the same are source files that do, or have faults of one kind. -/
theorem ofText_displaced
    {text other : String}
    (alike : Syntax.Parse.DeclaresAlike text other)
    (path : Path) :
    SameOutcome Displaced (ofText path text) (ofText path other) := by
  obtain ⟨shift, ordered, faults, source⟩ := alike
  unfold ofText
  generalize Syntax.Parse.ofText text = parse at faults source ⊢
  generalize Syntax.Parse.ofText other = parseOther at faults source ⊢
  obtain ⟨tree, errors⟩ := parse
  obtain ⟨treeOther, errorsOther⟩ := parseOther
  dsimp only at faults source ⊢
  rw [source]
  cases errors with
  | cons error rest =>
      obtain ⟨_, _, rfl, _, _⟩ := List.map_eq_cons_iff.mp faults
      exact .error rfl
  | nil =>
      obtain rfl := List.map_eq_nil_iff.mp faults
      dsimp only [SourceFile.moved]
      cases named : (SourceFile.ofTree tree).package with
      | none => exact .error rfl
      | some name => exact .ok ⟨shift, other, ordered, by simp [SourceFile.moved, named]⟩

end PackageFile

/-! ## The transfer to the exchanged files -/

namespace Transfer

/-- The transfer to files of the same package that declare the same at other offsets. -/
def toTexts
    (shift : Nat → Nat → Nat)
    (text : Nat → String)
    (ordered : ∀ index, StrictMono (shift index)) :
    Transfer where
  rename := .keep
  shift
  regular _ _ := True
  ordered _ _ := (ordered _).le_iff_le
  file before :=
    { before with
      text := text before.index
      lines := Text.LineIndex.ofText (text before.index)
      source := before.source.moved (Span.shifted (shift before.index)) }
  index _ := rfl
  imports _ := rfl
  dotImports _ := rfl

/-- Every file is found with its other text. -/
theorem carriesFile_toTexts
    {shift : Nat → Nat → Nat}
    {text : Nat → String}
    {ordered : ∀ index, StrictMono (shift index)}
    (file : FileScope) :
    (toTexts shift text ordered).CarriesFile file where
  types := rfl
  funcs := rfl
  regularDecls _ _ := trivial
  regularReceivers _ _ _ _ _ _ _ _ := trivial

end Transfer

namespace PackageFile

/-- Moving a source file does not change what it imports. -/
theorem ofSource_moved
    (index : Nat)
    (path : Path)
    (text other : String)
    (source : SourceFile)
    (move : Span → Span) :
    FileScope.ofSource index path other (source.moved move) =
      { FileScope.ofSource index path text source with
        text := other
        lines := Text.LineIndex.ofText other
        source := source.moved move } := by
  have named : FileScope.namedImports (source.moved move).imports =
      FileScope.namedImports source.imports := by
    simp [FileScope.namedImports, SourceFile.moved, List.foldl_map, ImportSpec.moved, Option.map_map]
  have dots : ((source.moved move).imports.filter ImportSpec.dot).filterMap ImportSpec.path =
      (source.imports.filter ImportSpec.dot).filterMap ImportSpec.path := by
    rw [SourceFile.moved, List.filter_map, List.filterMap_map]
    rfl
  simp only [FileScope.ofSource, named, dots]

/-- The scopes of exchanged files are the transferred ones. -/
theorem scopes_displaced
    {files others : List PackageFile}
    (displaced : List.Forall₂ Displaced files others) :
    ∃ shift text ordered,
      scopes 0 others = (scopes 0 files).map (Transfer.toTexts shift text ordered).file := by
  have each (index : Nat) : ∃ (shift : Nat → Nat) (text : String), StrictMono shift ∧
      others[index]? = files[index]?.map fun file =>
        { file with text, source := file.source.moved (Span.shifted shift) } := by
    induction displaced generalizing index with
    | nil => exact ⟨id, "", strictMono_id, rfl⟩
    | cons first _ inductionHypothesis =>
        cases index with
        | zero =>
            obtain ⟨shift, text, ordered, rfl⟩ := first
            exact ⟨shift, text, ordered, rfl⟩
        | succ index => exact inductionHypothesis index
  choose shift text ordered exchanged using each
  refine ⟨shift, text, ordered, List.ext_getElem? fun index => ?_⟩
  rw [List.getElem?_map, getElem?_scopes, getElem?_scopes, exchanged, Option.map_map, Option.map_map]
  refine Option.map_congr fun file _ => ?_
  rw [Function.comp_apply, Function.comp_apply, ofSource_moved _ _ file.text]
  simp [Transfer.toTexts, FileScope.ofSource]

end PackageFile

/-! ## Packages and units -/

/-- Whether two symbols differ in nothing but their places in files. -/
structure Symbol.SameButPlaced
    (before after : Symbol) :
    Prop where
  name : after.name = before.name
  package : after.package = before.package
  kind : after.kind = before.kind
  pointer : after.pointer = before.pointer
  methods : after.methods = before.methods
  isPartial : after.isPartial = before.isPartial
  file : after.position.file = before.position.file
  declaringFile : after.declaration.file = before.declaration.file

theorem Symbol.SameButPlaced.symm
    {before after : Symbol}
    (same : before.SameButPlaced after) :
    after.SameButPlaced before :=
  ⟨same.name.symm, same.package.symm, same.kind.symm, same.pointer.symm, same.methods.symm,
    same.isPartial.symm, same.file.symm, same.declaringFile.symm⟩

/-- Symbols in exchanged files are the same but for their places. -/
theorem Transfer.Counterpart.sameButPlaced
    {shift : Nat → Nat → Nat}
    {text : Nat → String}
    {ordered : ∀ index, StrictMono (shift index)}
    {before after : Symbol}
    (counterpart : (Transfer.toTexts shift text ordered).Counterpart before after) :
    before.SameButPlaced after := by
  obtain ⟨file, offset, place, placeToo⟩ := counterpart.position
  obtain ⟨declaring, declared, declaration, declarationToo⟩ := counterpart.declaration
  exact
    { name := counterpart.name
      package := counterpart.package
      kind := counterpart.kind
      pointer := counterpart.pointer
      methods := counterpart.methods.trans before.methods.renamed_keep
      isPartial := counterpart.isPartial
      file := by rw [place, placeToo]; rfl
      declaringFile := by rw [declaration, declarationToo]; rfl }

/-- Outcomes that agree in one way agree in a weaker one. -/
theorem SameOutcome.imp
    {agree weaker : α → β → Prop}
    {left : Except UnitError α}
    {right : Except UnitError β}
    (outcome : SameOutcome agree left right)
    (implies : ∀ value other, agree value other → weaker value other) :
    SameOutcome weaker left right := by
  cases outcome with
  | ok agrees => exact .ok (implies _ _ agrees)
  | error sameKind => exact .error sameKind

/-- Outcomes that agree still do the other way round. -/
theorem SameOutcome.symm
    {agree : α → β → Prop}
    {agreeToo : β → α → Prop}
    {left : Except UnitError α}
    {right : Except UnitError β}
    (turned : ∀ value other, agree value other → agreeToo other value)
    (outcome : SameOutcome agree left right) :
    SameOutcome agreeToo right left := by
  cases outcome with
  | ok agrees => exact .ok (turned _ _ agrees)
  | error sameKind => exact .error sameKind.symm

section Units

variable
  {files others : List PackageFile}
  (displaced : List.Forall₂ PackageFile.Displaced files others)

include displaced

/-- A package of exchanged files has the same symbols but for their places. -/
theorem resolvePackage_displaced
    (package : PackageId) :
    SameOutcome (fun left right => List.Forall₂ Symbol.SameButPlaced left.1 right.1)
      (resolvePackage package (PackageFile.scopesOf files package.name))
      (resolvePackage package (PackageFile.scopesOf others package.name)) := by
  have sameName {file other : PackageFile} (exchanged : file.Displaced other) :
      (file.package == package.name) = (other.package == package.name) := by
    obtain ⟨_, _, _, rfl⟩ := exchanged
    rfl
  have filtered : List.Forall₂ PackageFile.Displaced
      (files.filter (·.package == package.name)) (others.filter (·.package == package.name)) :=
    List.rel_filter (fun _ _ exchanged => iff_of_eq (congrArg (· = true) (sameName exchanged)))
      displaced
  obtain ⟨shift, text, ordered, scopes⟩ := PackageFile.scopes_displaced filtered
  have outcome := (Transfer.toTexts shift text ordered).resolvePackage package
    fun file (_ : file ∈ PackageFile.scopesOf files package.name) =>
      Transfer.carriesFile_toTexts file
  rw [PackageFile.scopesOf, PackageFile.scopesOf, scopes]
  exact outcome.imp fun _ _ counterparts =>
    counterparts.imp fun _ _ counterpart => counterpart.sameButPlaced

/-- The packages of exchanged files have the same symbols but for their places. -/
theorem resolvePackages_displaced
    (unit : Path)
    (names : List String) :
    SameOutcome (fun left right => List.Forall₂ Symbol.SameButPlaced left.1 right.1)
      (resolvePackages unit files names)
      (resolvePackages unit others names) := by
  induction names with
  | nil => exact .ok .nil
  | cons name rest inductionHypothesis =>
      apply (resolvePackage_displaced displaced ⟨unit, name⟩).bind
      rintro ⟨symbols, _⟩ ⟨symbolsOther, _⟩ same
      apply inductionHypothesis.bind
      rintro ⟨later, _⟩ ⟨laterOther, _⟩ sameLater
      exact .ok (List.rel_append same sameLater)

omit displaced in
/-- Texts that are read are source files that declare the same. -/
theorem ofTexts_displaced
    {texts textsOther : List (Path × String)}
    (alike : List.Forall₂
      (fun before after => after.1 = before.1 ∧
        Syntax.Parse.DeclaresAlike before.2 after.2) texts textsOther) :
    SameOutcome (List.Forall₂ PackageFile.Displaced)
      (PackageFile.ofTexts texts) (PackageFile.ofTexts textsOther) := by
  induction alike with
  | nil => exact .ok .nil
  | @cons before after _ _ first _ inductionHypothesis =>
      obtain ⟨path, text⟩ := before
      obtain ⟨_, textOther⟩ := after
      obtain ⟨rfl, alike⟩ := first
      apply (PackageFile.ofText_displaced alike _).bind
      intro file other exchanged
      apply inductionHypothesis.bind
      intro later laterOther exchangedLater
      exact .ok (.cons exchanged exchangedLater)

end Units

/-- Whether every path is read alike, or as texts that declare the same. -/
def FileSystem.ReadsAlike
    (files others : FileSystem) :
    Prop :=
  ∀ path, others.read path = files.read path ∨
    ∃ text other, files.read path = .ok text ∧ others.read path = .ok other ∧
      Syntax.Parse.DeclaresAlike text other

section Reading

variable
  {files others : FileSystem}
  (alike : files.ReadsAlike others)

include alike

/-- The same files can be read, and their texts declare the same. -/
theorem readFiles_displaced
    (paths : List Path) :
    SameOutcome
      (List.Forall₂ fun before after =>
        after.1 = before.1 ∧ Syntax.Parse.DeclaresAlike before.2 after.2)
      (readFiles files paths) (readFiles others paths) := by
  induction paths with
  | nil => exact .ok .nil
  | cons path rest inductionHypothesis =>
      have later {text other : String} (declares : Syntax.Parse.DeclaresAlike text other) :
          SameOutcome
            (List.Forall₂ fun before after =>
              after.1 = before.1 ∧ Syntax.Parse.DeclaresAlike before.2 after.2)
            (do return (path, text) :: (← readFiles files rest))
            (do return (path, other) :: (← readFiles others rest)) := by
        apply inductionHypothesis.bind
        intro texts textsOther related
        exact .ok (.cons ⟨rfl, declares⟩ related)
      rcases alike path with same | ⟨text, other, read, readOther, declares⟩
      · simp only [readFiles, same]
        cases files.read path with
        | error _ => exact .error rfl
        | ok text => exact later (.refl text)
      · simp only [readFiles, read, readOther]
        exact later declares

/-- A unit whose files declare the same has the same symbols but for their places. -/
theorem resolveUnit_displaced
    (unit : SourceUnit) :
    SameOutcome
      (fun left right => List.Forall₂ Symbol.SameButPlaced left.1.symbols right.1.symbols)
      (resolveUnit files unit) (resolveUnit others unit) := by
  apply (readFiles_displaced alike unit.files).bind
  intro texts textsOther related
  apply (ofTexts_displaced related).bind
  intro parsed parsedOther displaced
  have names : PackageFile.packageNames parsedOther = PackageFile.packageNames parsed := by
    have packages : parsedOther.map PackageFile.package = parsed.map PackageFile.package := by
      induction displaced with
      | nil => rfl
      | cons first _ inductionHypothesis =>
          obtain ⟨_, _, _, rfl⟩ := first
          rw [List.map_cons, List.map_cons, inductionHypothesis]
    rw [PackageFile.packageNames, packages, PackageFile.packageNames]
  rw [names]
  apply (resolvePackages_displaced displaced unit.path _).bind
  rintro ⟨symbols, _⟩ ⟨symbolsOther, _⟩ same
  exact .ok same

end Reading

end Implementers
