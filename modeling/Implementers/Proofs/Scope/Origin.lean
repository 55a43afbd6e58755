import Implementers.Proofs.Order.Success
import Implementers.Scope.Unit

namespace Implementers

/-!
# Where the symbols of a unit come from

Every symbol belongs to the package that it was resolved in, and its declared type is declared in a
file of the unit whose package clause names that package.  So the place of a declaration tells which
package a symbol belongs to.
-/

/-- A computation after another one answers when both do. -/
theorem ok_of_bind
    {first : Except ε α}
    {next : α → Except ε β}
    {result : β}
    (answered : first >>= next = .ok result) :
    ∃ value, first = .ok value ∧ next value = .ok result := by
  cases first with
  | error _ => cases answered
  | ok value => exact ⟨value, rfl, answered⟩

namespace Scope

/-- Every symbol of a package belongs to it and to one of its declarations. -/
theorem Resolution.declared
    {scope : Scope}
    (resolution : Resolution scope)
    (distinct : (scope.decls.map TypeDecl.name).Nodup)
    {symbol : Symbol}
    (member : symbol ∈ resolution.symbols) :
    symbol.package = scope.package ∧
      ∃ decl ∈ scope.decls, symbol.name = decl.name ∧ symbol.declaration = decl.position := by
  cases resolution.makes_of_mem distinct member with
  | @interface decl _ declMember _ _ => exact ⟨rfl, decl, declMember, rfl, rfl⟩
  | @concrete decl _ declMember _ => exact ⟨rfl, decl, declMember, rfl, rfl⟩
  | @receiver _ decl _ declared _ =>
      obtain ⟨declMember, named⟩ := (findDecl?_eq_some_iff distinct).mp declared
      exact ⟨rfl, decl, declMember, named.symm, rfl⟩

/-- Every declaration of a package is one of the type declarations of one of its files. -/
theorem written_of_mem_decls
    {package : PackageId}
    {files : List FileScope}
    {decl : TypeDecl}
    (member : decl ∈ (opened package files).decls) :
    decl.file ∈ files ∧ decl.spec ∈ decl.file.source.types := by
  obtain ⟨file, fileMember, declared⟩ := List.mem_flatMap.mp member
  obtain ⟨spec, specMember, made⟩ := List.mem_filterMap.mp declared
  cases named : spec.name with
  | none => simp [named] at made
  | some ident =>
      simp only [named, Option.bind_some, Option.ite_none_left_eq_some] at made
      obtain ⟨_, made⟩ := made
      cases made
      exact ⟨fileMember, specMember⟩

end Scope

/-- Every symbol of a package belongs to it and is declared in one of its files. -/
theorem resolvePackage_declared
    {package : PackageId}
    {files : List FileScope}
    {symbols : List Symbol}
    {warnings : List Warning}
    (resolved : resolvePackage package files = .ok (symbols, warnings))
    {symbol : Symbol}
    (member : symbol ∈ symbols) :
    symbol.package = package ∧ ∃ file ∈ files, symbol.declaration.file = file.path := by
  obtain ⟨scope, resolution, isOpened, rfl, _⟩ := resolvePackage_ok resolved
  obtain ⟨rfl, distinct⟩ := Scope.ofFiles_ok.mp isOpened
  obtain ⟨sameDeclared, decl, declMember, _, declared⟩ := resolution.declared distinct member
  refine ⟨sameDeclared, decl.file, (Scope.written_of_mem_decls declMember).1, ?_⟩
  rw [declared]
  rfl

/-- The scope of a package's file is made of that file. -/
theorem PackageFile.exists_of_mem_scopes
    (parsed : List PackageFile) :
    ∀ {index : Nat} {file : FileScope},
      file ∈ scopes index parsed →
        ∃ source ∈ parsed, ∃ place,
          file = FileScope.ofSource place source.path source.text source.source := by
  induction parsed with
  | nil =>
      intro index file member
      cases member
  | cons source rest inductionHypothesis =>
      intro index file member
      rcases List.mem_cons.mp member with rfl | later
      · exact ⟨source, List.mem_cons_self, index, rfl⟩
      · obtain ⟨other, otherMember, made⟩ := inductionHypothesis later
        exact ⟨other, List.mem_cons_of_mem source otherMember, made⟩

/-- The scopes of files are numbered from an index on. -/
theorem PackageFile.getElem?_scopes
    (start index : Nat)
    (files : List PackageFile) :
    (scopes start files)[index]? =
      files[index]?.map fun file =>
        FileScope.ofSource (start + index) file.path file.text file.source := by
  induction files generalizing start index with
  | nil => rfl
  | cons file rest inductionHypothesis =>
      cases index with
      | zero => rfl
      | succ index =>
          rw [scopes, List.getElem?_cons_succ, List.getElem?_cons_succ, inductionHypothesis]
          rw [Nat.add_right_comm, Nat.add_assoc]

/-- Every symbol of a unit's packages belongs to the package of the file that declares it. -/
theorem resolvePackages_declared
    {unit : Path}
    {parsed : List PackageFile}
    (names : List String) :
    ∀ {symbols : List Symbol} {warnings : List Warning},
      resolvePackages unit parsed names = .ok (symbols, warnings) →
      ∀ symbol ∈ symbols,
        ∃ file ∈ parsed,
          symbol.package = ⟨unit, file.package⟩ ∧ symbol.declaration.file = file.path := by
  induction names with
  | nil =>
      intro symbols warnings resolved symbol member
      cases resolved
      cases member
  | cons name rest inductionHypothesis =>
      intro symbols warnings resolved symbol member
      obtain ⟨found, first, next⟩ := ok_of_bind resolved
      obtain ⟨others, later, returned⟩ := ok_of_bind next
      cases returned
      rcases List.mem_append.mp member with ofFirst | ofLater
      · obtain ⟨samePackage, file, fileMember, samePath⟩ := resolvePackage_declared first ofFirst
        obtain ⟨source, sourceMember, _, rfl⟩ :=
          PackageFile.exists_of_mem_scopes _ fileMember
        obtain ⟨inParsed, named⟩ := List.mem_filter.mp sourceMember
        refine ⟨source, inParsed, ?_, samePath⟩
        rw [samePackage, eq_of_beq named]
      · exact inductionHypothesis later symbol ofLater

/-- The files that were read are those of the list, with the texts that the file system has. -/
theorem readFiles_ok
    {files : FileSystem}
    (paths : List Path) :
    ∀ {texts : List (Path × String)},
      readFiles files paths = .ok texts →
      ∀ entry ∈ texts, entry.1 ∈ paths ∧ files.read entry.1 = .ok entry.2 := by
  induction paths with
  | nil =>
      intro texts read entry member
      cases read
      cases member
  | cons path rest inductionHypothesis =>
      intro texts read entry member
      cases first : files.read path with
      | error _ =>
          simp only [readFiles, first] at read
          cases read
      | ok text =>
          simp only [readFiles, first] at read
          obtain ⟨others, later, returned⟩ := ok_of_bind read
          cases returned
          rcases List.mem_cons.mp member with rfl | inOthers
          · exact ⟨List.mem_cons_self, first⟩
          · obtain ⟨listed, hasText⟩ := inductionHypothesis later entry inOthers
            exact ⟨List.mem_cons_of_mem path listed, hasText⟩

namespace PackageFile

/-- A parsed file has the path that it was parsed for. -/
theorem path_of_ofText
    {path : Path}
    {text : String}
    {file : PackageFile}
    (parsed : ofText path text = .ok file) :
    file.path = path := by
  unfold ofText at parsed
  generalize Syntax.Parse.ofText text = parse at parsed
  obtain ⟨tree, errors⟩ := parse
  cases errors with
  | cons error later => cases parsed
  | nil =>
      dsimp only at parsed
      split at parsed
      · cases parsed
      · cases parsed
        rfl

/-- The parsed files are those of the texts. -/
theorem ofTexts_ok
    (texts : List (Path × String)) :
    ∀ {parsed : List PackageFile},
      ofTexts texts = .ok parsed →
      ∀ file ∈ parsed, ∃ entry ∈ texts, ofText entry.1 entry.2 = .ok file := by
  induction texts with
  | nil =>
      intro parsed read file member
      cases read
      cases member
  | cons entry rest inductionHypothesis =>
      intro parsed read file member
      obtain ⟨source, first, next⟩ := ok_of_bind read
      obtain ⟨others, later, returned⟩ := ok_of_bind next
      cases returned
      rcases List.mem_cons.mp member with rfl | inOthers
      · exact ⟨entry, List.mem_cons_self, first⟩
      · obtain ⟨other, listed, ofOther⟩ := inductionHypothesis later file inOthers
        exact ⟨other, List.mem_cons_of_mem entry listed, ofOther⟩

end PackageFile

/-- Where a symbol of a unit comes from. -/
structure Symbol.ComesFrom
    (files : FileSystem)
    (unit : SourceUnit)
    (symbol : Symbol) :
    Prop where
  sameUnit : symbol.package.unit = unit.path
  inUnit : symbol.declaration.file ∈ unit.files
  /-- The package clause of the declaring file names the package. -/
  clause :
    ∃ text source,
      files.read symbol.declaration.file = .ok text ∧
        PackageFile.ofText symbol.declaration.file text = .ok source ∧
        source.package = symbol.package.name

/-- Every symbol of a unit belongs to the package of the file that declares it. -/
theorem resolveUnit_comesFrom
    {files : FileSystem}
    {unit : SourceUnit}
    {table : SymbolTable}
    {warnings : List Warning}
    (resolved : resolveUnit files unit = .ok (table, warnings))
    {symbol : Symbol}
    (member : symbol ∈ table.symbols) :
    symbol.ComesFrom files unit := by
  obtain ⟨texts, read, next⟩ := ok_of_bind resolved
  obtain ⟨sources, parsed, nextSymbols⟩ := ok_of_bind next
  obtain ⟨found, resolvedAll, returned⟩ := ok_of_bind nextSymbols
  cases returned
  obtain ⟨source, sourceMember, samePackage, samePath⟩ :=
    resolvePackages_declared _ resolvedAll symbol member
  obtain ⟨entry, entryMember, ofEntry⟩ := PackageFile.ofTexts_ok texts parsed source sourceMember
  obtain ⟨listed, hasText⟩ := readFiles_ok unit.files read entry entryMember
  have sameFile : symbol.declaration.file = entry.1 :=
    samePath.trans (PackageFile.path_of_ofText ofEntry)
  exact ⟨by rw [samePackage], sameFile ▸ listed, entry.2, source, sameFile ▸ hasText,
    sameFile ▸ ofEntry, by rw [samePackage]⟩

/-- Symbols that are declared in one file of a unit belong to one package. -/
theorem Symbol.ComesFrom.package_eq
    {files : FileSystem}
    {unit : SourceUnit}
    {symbol other : Symbol}
    (comesFrom : symbol.ComesFrom files unit)
    (otherComesFrom : other.ComesFrom files unit)
    (same : symbol.declaration.file = other.declaration.file) :
    symbol.package = other.package := by
  obtain ⟨text, source, read, parsed, named⟩ := comesFrom.clause
  obtain ⟨otherText, otherSource, otherRead, otherParsed, otherNamed⟩ := otherComesFrom.clause
  rw [same, otherRead] at read
  cases read
  rw [same, otherParsed] at parsed
  cases parsed
  have sameUnit : symbol.package.unit = other.package.unit :=
    comesFrom.sameUnit.trans otherComesFrom.sameUnit.symm
  have sameName : symbol.package.name = other.package.name := named.symm.trans otherNamed
  cases ofSymbol : symbol.package
  cases ofOther : other.package
  simp_all

end Implementers
