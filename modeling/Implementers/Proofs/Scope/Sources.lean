import Implementers.Proofs.Files.Scans
import Implementers.Proofs.Scope.Transferred

namespace Implementers

/-!
# Packages by their leaves

A unit resolves exactly when each of its leaves is a source file without faults of syntax and each
package of them resolves.  The files of a package are the leaves that declare its name, so neither
the unit nor the other leaves matter for them.  Under another path a leaf is the same source file,
and the transfer to other paths carries a package to its counterpart.
-/

/-- A result that is there as an option is an answer. -/
theorem Except.eq_ok_of_toOption
    {result : Except ε α}
    {value : α}
    (isThere : result.toOption = some value) :
    result = .ok value := by
  cases result with
  | error _ => cases isThere
  | ok _ => exact congrArg Except.ok (Option.some.inj isThere)

/-! ## Source files -/

/-- A text is the same source file at every path. -/
theorem PackageFile.ofText_eq_map
    (path other : Path)
    (text : String) :
    (ofText path text).toOption =
      (ofText other text).toOption.map fun file => { file with path } := by
  unfold ofText
  generalize Syntax.Parse.ofText text = parse
  obtain ⟨tree, errors⟩ := parse
  cases errors with
  | cons error later =>
      dsimp only
      simp only [Except.toOption, Option.map_none]
  | nil =>
      dsimp only
      split
      · simp only [Except.toOption, Option.map_none]
      · simp only [Except.toOption, Option.map_some]

namespace Leaf

/-- The source file that a leaf is at a path, if it is one without faults of syntax. -/
def fileAt
    (path : Path)
    (leaf : Leaf) :
    Option PackageFile :=
  leaf.content.decoded.toOption.bind fun text => (PackageFile.ofText path text).toOption

/-- The name of the package that a leaf declares, if it is a source file. -/
def package?
    (leaf : Leaf) :
    Option String :=
  (leaf.fileAt ⟨leaf.name⟩).map PackageFile.package

/-- The source files that leaves are at their paths. -/
def filesAt
    (place : Leaf → Path)
    (leaves : List Leaf) :
    List PackageFile :=
  leaves.filterMap fun leaf => leaf.fileAt (place leaf)

/-- A source file at a path is the same one at another path. -/
theorem fileAt_eq_map
    (path other : Path)
    (leaf : Leaf) :
    leaf.fileAt path = (leaf.fileAt other).map fun file => { file with path } := by
  unfold fileAt
  cases leaf.content.decoded.toOption with
  | none => simp only [Option.bind_none, Option.map_none]
  | some text =>
      simp only [Option.bind_some]
      exact PackageFile.ofText_eq_map path other text

/-- The package of a source file is the one that the leaf declares. -/
theorem map_package_fileAt
    (path : Path)
    (leaf : Leaf) :
    (leaf.fileAt path).map PackageFile.package = leaf.package? := by
  rw [fileAt_eq_map path ⟨leaf.name⟩, Option.map_map]
  rfl

/-- A source file at a path has that path. -/
theorem path_of_fileAt
    {path : Path}
    {leaf : Leaf}
    {file : PackageFile}
    (isFile : leaf.fileAt path = some file) :
    file.path = path := by
  rw [fileAt_eq_map path ⟨leaf.name⟩] at isFile
  obtain ⟨before, _, rfl⟩ := Option.map_eq_some_iff.mp isFile
  rfl

/-- The source files of a package are the leaves that declare it. -/
theorem filter_package_filesAt
    (place : Leaf → Path)
    (leaves : List Leaf)
    (name : String) :
    (filesAt place leaves).filter (·.package == name) =
      filesAt place (leaves.filter (·.package? == some name)) := by
  simp only [filesAt, List.filter_filterMap, List.filterMap_filter]
  refine List.filterMap_congr fun leaf _ => ?_
  have named := leaf.map_package_fileAt (place leaf)
  cases isFile : leaf.fileAt (place leaf) with
  | none => simp
  | some file =>
      rw [isFile, Option.map_some] at named
      simp [← named, Option.filter]

/-- Files are read and parsed exactly when each leaf is a source file. -/
theorem parsed_iff
    {files : FileSystem}
    {place : Leaf → Path}
    {leaves : List Leaf}
    (read : ∀ leaf ∈ leaves, files.read (place leaf) = leaf.content.decoded) :
    ∀ {parsed : List PackageFile},
      (∃ texts, readFiles files (leaves.map place) = .ok texts ∧
          PackageFile.ofTexts texts = .ok parsed) ↔
        List.Forall₂ (fun leaf file => leaf.fileAt (place leaf) = some file) leaves parsed := by
  induction leaves with
  | nil =>
      intro parsed
      cases parsed <;> simp [readFiles, PackageFile.ofTexts]
  | cons leaf rest inductionHypothesis =>
      intro parsed
      obtain ⟨readFirst, readRest⟩ := List.forall_mem_cons.mp read
      constructor
      · rintro ⟨texts, areRead, areParsed⟩
        cases decoded : leaf.content.decoded with
        | error fault =>
            simp only [List.map_cons, readFiles, readFirst, decoded] at areRead
            cases areRead
        | ok text =>
            simp only [List.map_cons, readFiles, readFirst, decoded] at areRead
            obtain ⟨others, othersRead, returned⟩ := ok_of_bind areRead
            cases returned
            obtain ⟨file, isParsed, next⟩ := ok_of_bind areParsed
            obtain ⟨otherFiles, othersParsed, returned⟩ := ok_of_bind next
            cases returned
            refine .cons ?_ ((inductionHypothesis readRest).mp ⟨others, othersRead, othersParsed⟩)
            simp [fileAt, decoded, isParsed, Except.toOption]
      · intro areFiles
        obtain ⟨file, otherFiles, isFile, othersAreFiles, rfl⟩ :=
          List.forall₂_cons_left_iff.mp areFiles
        obtain ⟨others, othersRead, othersParsed⟩ :=
          (inductionHypothesis readRest).mpr othersAreFiles
        obtain ⟨text, decoded, parsedText⟩ := Option.bind_eq_some_iff.mp isFile
        have isDecoded : leaf.content.decoded = .ok text := Except.eq_ok_of_toOption decoded
        have isParsed : PackageFile.ofText (place leaf) text = .ok file :=
          Except.eq_ok_of_toOption parsedText
        refine ⟨(place leaf, text) :: others, ?_, ?_⟩
        · simp only [List.map_cons, readFiles, readFirst, isDecoded, othersRead]
          rfl
        · simp only [PackageFile.ofTexts, isParsed, othersParsed]
          rfl

/-- The files that there are for leaves are the source files that the leaves are. -/
theorem filesAt_eq
    {place : Leaf → Path}
    {leaves : List Leaf}
    {parsed : List PackageFile}
    (areFiles : List.Forall₂ (fun leaf file => leaf.fileAt (place leaf) = some file) leaves parsed) :
    parsed = filesAt place leaves := by
  induction areFiles with
  | nil => rfl
  | cons isFile _ inductionHypothesis =>
      simp only [filesAt, List.filterMap_cons, isFile, inductionHypothesis]

/-- Leaves that are source files have their files. -/
theorem forall₂_filesAt
    (place : Leaf → Path)
    {leaves : List Leaf}
    (sound : ∀ leaf ∈ leaves, leaf.package?.isSome) :
    List.Forall₂ (fun leaf file => leaf.fileAt (place leaf) = some file) leaves
      (filesAt place leaves) := by
  induction leaves with
  | nil => exact .nil
  | cons leaf rest inductionHypothesis =>
      obtain ⟨isSound, restSound⟩ := List.forall_mem_cons.mp sound
      rw [← leaf.map_package_fileAt (place leaf), Option.isSome_map] at isSound
      obtain ⟨file, isFile⟩ := Option.isSome_iff_exists.mp isSound
      simp only [filesAt, List.filterMap_cons, isFile]
      exact .cons isFile (inductionHypothesis restSound)

/-- The names of the packages that leaves declare, in the order of their first occurrence. -/
def packages
    (leaves : List Leaf) :
    List String :=
  (leaves.filterMap package?).eraseDups

/-- A name is that of a package when a leaf declares it. -/
theorem mem_packages
    {leaves : List Leaf}
    {name : String} :
    name ∈ packages leaves ↔ ∃ leaf ∈ leaves, leaf.package? = some name := by
  rw [packages, List.mem_eraseDups, List.mem_filterMap]

theorem nodup_packages
    (leaves : List Leaf) :
    (packages leaves).Nodup :=
  Scope.nodup_eraseDups _

/-- The packages of source files are those that the leaves declare. -/
theorem packageNames_filesAt
    (place : Leaf → Path)
    (leaves : List Leaf) :
    PackageFile.packageNames (filesAt place leaves) = packages leaves := by
  simp only [PackageFile.packageNames, packages, filesAt, List.map_filterMap, map_package_fileAt]

/-- The scopes of a package come from the leaves that declare it. -/
theorem scopesOf_filesAt
    (place : Leaf → Path)
    {leaves others : List Leaf}
    {name : String}
    (same :
      leaves.filter (·.package? == some name) = others.filter (·.package? == some name)) :
    PackageFile.scopesOf (filesAt place leaves) name =
      PackageFile.scopesOf (filesAt place others) name := by
  simp only [PackageFile.scopesOf, filter_package_filesAt, same]

end Leaf

/-! ## Packages -/

namespace PackageFile

/-- Whether a package of source files resolves. -/
def Resolves
    (files : List PackageFile)
    (package : PackageId) :
    Prop :=
  (resolvePackage package (scopesOf files package.name)).isOk

/-- The symbols of a package of source files, if it resolves. -/
def symbolsOf
    (files : List PackageFile)
    (package : PackageId) :
    List Symbol :=
  match resolvePackage package (scopesOf files package.name) with
  | .ok (symbols, _) => symbols
  | .error _ => []

/-- Packages that resolve one after the other have the symbols of all of them. -/
theorem resolvePackages_ok
    {unit : Path}
    {files : List PackageFile}
    {names : List String} :
    ∀ {symbols : List Symbol} {warnings : List Warning},
      resolvePackages unit files names = .ok (symbols, warnings) →
      (∀ name ∈ names, Resolves files ⟨unit, name⟩) ∧
        symbols = names.flatMap fun name => symbolsOf files ⟨unit, name⟩ := by
  induction names with
  | nil =>
      intro symbols warnings resolved
      cases resolved
      exact ⟨by simp, rfl⟩
  | cons name rest inductionHypothesis =>
      intro symbols warnings resolved
      obtain ⟨found, first, next⟩ := ok_of_bind resolved
      obtain ⟨others, later, returned⟩ := ok_of_bind next
      cases returned
      obtain ⟨resolve, areSymbols⟩ := inductionHypothesis later
      refine ⟨List.forall_mem_cons.mpr ⟨?_, resolve⟩, ?_⟩
      · simp only [Resolves, first]
        rfl
      · rw [List.flatMap_cons, areSymbols]
        simp only [symbolsOf, first]

/-- Packages of which each resolves can be resolved one after the other. -/
theorem exists_resolvePackages
    {unit : Path}
    {files : List PackageFile}
    {names : List String}
    (resolve : ∀ name ∈ names, Resolves files ⟨unit, name⟩) :
    ∃ found, resolvePackages unit files names = .ok found := by
  induction names with
  | nil => exact ⟨_, rfl⟩
  | cons name rest inductionHypothesis =>
      obtain ⟨first, later⟩ := List.forall_mem_cons.mp resolve
      obtain ⟨others, othersResolved⟩ := inductionHypothesis later
      cases resolved : resolvePackage ⟨unit, name⟩ (scopesOf files name) with
      | error _ =>
          simp only [Resolves, resolved] at first
          cases first
      | ok found =>
          simp only [resolvePackages, resolved, othersResolved]
          exact ⟨_, rfl⟩

end PackageFile

/-! ## Other paths -/

/-- Moving nothing changes no declared type. -/
theorem Syntax.TypeSpec.moved_id
    (spec : Syntax.TypeSpec) :
    spec.moved id = spec := by
  obtain ⟨_, name, _, type, _⟩ := spec
  cases name <;> simp [moved, TypeExpr.moved_id]

namespace Transfer

/-- The transfer to other paths, at which the texts are the same. -/
def toPaths
    (rename : Renaming)
    (target : Path → Path) :
    Transfer where
  rename
  shift _ offset := offset
  regular _ _ := True
  ordered _ _ := .rfl
  file before := { before with path := target before.path }
  index _ := rfl
  imports _ := rfl
  dotImports _ := rfl

variable
  {rename : Renaming}
  {target : Path → Path}

/-- Every file is found at its other path. -/
theorem carriesFile_toPaths
    (file : FileScope) :
    (toPaths rename target).CarriesFile file where
  types := by
    have stays : (toPaths rename target).span file = id := rfl
    rw [stays, List.map_congr_left fun spec _ => spec.moved_id, List.map_id']
    rfl
  funcs := by
    have stays : (toPaths rename target).span file = id := rfl
    rw [stays, List.map_congr_left fun func _ => func.moved_id, List.map_id']
    rfl
  regularDecls _ _ := trivial
  regularReceivers _ _ _ _ _ _ _ _ := trivial

/-- The scopes of leaves at other paths are the transferred ones. -/
theorem scopes_filesAt
    {place other : Leaf → Path}
    {leaves : List Leaf}
    (leads : ∀ leaf ∈ leaves, target (place leaf) = other leaf) :
    ∀ index,
      PackageFile.scopes index (Leaf.filesAt other leaves) =
        (PackageFile.scopes index (Leaf.filesAt place leaves)).map (toPaths rename target).file := by
  induction leaves with
  | nil => exact fun _ => rfl
  | cons leaf rest inductionHypothesis =>
      intro index
      obtain ⟨leadsHere, leadsRest⟩ := List.forall_mem_cons.mp leads
      have moved := leaf.fileAt_eq_map (other leaf) (place leaf)
      cases isFile : leaf.fileAt (place leaf) with
      | none =>
          rw [isFile, Option.map_none] at moved
          simp only [Leaf.filesAt, List.filterMap_cons, moved, isFile]
          exact inductionHypothesis leadsRest index
      | some file =>
          rw [isFile, Option.map_some] at moved
          have samePath : target file.path = other leaf := by
            rw [Leaf.path_of_fileAt isFile, leadsHere]
          simp only [Leaf.filesAt, List.filterMap_cons, moved, isFile, PackageFile.scopes,
            List.map_cons]
          exact congrArg₂ List.cons
            (by simp only [toPaths, FileScope.ofSource, samePath])
            (inductionHypothesis leadsRest (index + 1))

/-- A package at other paths resolves when it did before, and to the counterparts of its symbols. -/
theorem symbolsOf_filesAt
    {place other : Leaf → Path}
    {leaves : List Leaf}
    (leads : ∀ leaf ∈ leaves, target (place leaf) = other leaf)
    (package : PackageId) :
    (PackageFile.Resolves (Leaf.filesAt place leaves) package ↔
        PackageFile.Resolves (Leaf.filesAt other leaves) (rename.package package)) ∧
      List.Forall₂ (toPaths rename target).Counterpart
        (PackageFile.symbolsOf (Leaf.filesAt place leaves) package)
        (PackageFile.symbolsOf (Leaf.filesAt other leaves) (rename.package package)) := by
  have among :
      ∀ leaf ∈ leaves.filter (·.package? == some package.name), target (place leaf) = other leaf :=
    fun leaf member => leads leaf (List.mem_of_mem_filter member)
  have scopes :
      PackageFile.scopesOf (Leaf.filesAt other leaves) (rename.package package).name =
        (PackageFile.scopesOf (Leaf.filesAt place leaves) package.name).map
          (toPaths rename target).file := by
    simp only [PackageFile.scopesOf, rename.name, Leaf.filter_package_filesAt]
    exact scopes_filesAt among 0
  have outcome :
      SameOutcome
        (fun left right => List.Forall₂ (toPaths rename target).Counterpart left.1 right.1)
        (Implementers.resolvePackage package
          (PackageFile.scopesOf (Leaf.filesAt place leaves) package.name))
        (Implementers.resolvePackage (rename.package package)
          ((PackageFile.scopesOf (Leaf.filesAt place leaves) package.name).map
            (toPaths rename target).file)) :=
    (toPaths rename target).resolvePackage package fun file _ => carriesFile_toPaths file
  simp only [PackageFile.Resolves, PackageFile.symbolsOf, scopes]
  refine ⟨outcome.isOk_iff, ?_⟩
  generalize Implementers.resolvePackage package _ = left at outcome ⊢
  generalize Implementers.resolvePackage (rename.package package) _ = right at outcome ⊢
  cases outcome with
  | ok counterparts => exact counterparts
  | error _ => exact .nil

end Transfer

/-- Every symbol of a package belongs to it. -/
theorem PackageFile.package_of_mem_symbolsOf
    {files : List PackageFile}
    {package : PackageId}
    {symbol : Symbol}
    (member : symbol ∈ symbolsOf files package) :
    symbol.package = package := by
  unfold symbolsOf at member
  split at member
  · next resolved => exact (resolvePackage_declared resolved member).1
  · cases member

/-! ## Units -/

section Units

variable
  {files : FileSystem}
  {unit : SourceUnit}
  {place : Leaf → Path}
  {leaves : List Leaf}
  (unitFiles : unit.files = leaves.map place)
  (read : ∀ leaf ∈ leaves, files.read (place leaf) = leaf.content.decoded)

include unitFiles read

/-- A unit that resolves has the symbols of the packages that its leaves declare. -/
theorem resolveUnit_leaves
    {table : SymbolTable}
    {warnings : List Warning}
    (resolved : resolveUnit files unit = .ok (table, warnings)) :
    (∀ leaf ∈ leaves, leaf.package?.isSome) ∧
      (∀ name ∈ Leaf.packages leaves,
        PackageFile.Resolves (Leaf.filesAt place leaves) ⟨unit.path, name⟩) ∧
      table.symbols =
        (Leaf.packages leaves).flatMap fun name =>
          PackageFile.symbolsOf (Leaf.filesAt place leaves) ⟨unit.path, name⟩ := by
  obtain ⟨texts, areRead, next⟩ := ok_of_bind resolved
  obtain ⟨parsed, areParsed, nextSymbols⟩ := ok_of_bind next
  obtain ⟨found, resolvedAll, returned⟩ := ok_of_bind nextSymbols
  cases returned
  rw [unitFiles] at areRead
  have areFiles := (Leaf.parsed_iff read).mp ⟨texts, areRead, areParsed⟩
  have isFiles : parsed = Leaf.filesAt place leaves := Leaf.filesAt_eq areFiles
  subst isFiles
  rw [Leaf.packageNames_filesAt] at resolvedAll
  obtain ⟨resolve, areSymbols⟩ := PackageFile.resolvePackages_ok resolvedAll
  refine ⟨fun leaf member => ?_, resolve, areSymbols⟩
  obtain ⟨file, _, isFile⟩ := exists_related_right areFiles member
  rw [← leaf.map_package_fileAt (place leaf), isFile]
  rfl

/-- A unit resolves when its leaves are source files and the packages that they declare resolve. -/
theorem exists_resolveUnit
    (sound : ∀ leaf ∈ leaves, leaf.package?.isSome)
    (resolve :
      ∀ name ∈ Leaf.packages leaves,
        PackageFile.Resolves (Leaf.filesAt place leaves) ⟨unit.path, name⟩) :
    ∃ found, resolveUnit files unit = .ok found := by
  obtain ⟨texts, areRead, areParsed⟩ := (Leaf.parsed_iff read).mpr (Leaf.forall₂_filesAt place sound)
  rw [← unitFiles] at areRead
  obtain ⟨found, resolvedAll⟩ := PackageFile.exists_resolvePackages resolve
  rw [← Leaf.packageNames_filesAt place leaves] at resolvedAll
  simp only [resolveUnit, areRead, areParsed, bind, Except.bind, resolvedAll]
  exact ⟨_, rfl⟩

end Units

end Implementers
