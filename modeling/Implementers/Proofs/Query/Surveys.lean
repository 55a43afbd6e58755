import Implementers.Proofs.Query.Counterparts
import Implementers.Proofs.Query.Scheduling
import Implementers.Proofs.Scope.Sources

namespace Implementers

/-!
# The packages of a scanned tree

When no package name is used in two directories, a query on a scanned tree sees each package in one
unit.  It succeeds exactly when every accepted leaf is a source file and every package resolves, and
what it gathers are the symbols of the packages.
-/

/-- Whether leaves that declare one package are in one directory. -/
def Leaf.KeepTogether
    (leaves : List Leaf) :
    Prop :=
  ∀ leaf ∈ leaves, ∀ other ∈ leaves,
    leaf.package?.isSome → leaf.package? = other.package? → leaf.directory = other.directory

instance
    (leaves : List Leaf) :
    Decidable (Leaf.KeepTogether leaves) :=
  inferInstanceAs (Decidable (∀ leaf ∈ leaves, _))

/-- Leaves that declare a package of one name are in one directory. -/
theorem Leaf.KeepTogether.directory_eq
    {leaves : List Leaf}
    (together : KeepTogether leaves)
    {leaf other : Leaf}
    (member : leaf ∈ leaves)
    (otherMember : other ∈ leaves)
    {name : String}
    (isPackage : leaf.package? = some name)
    (isOtherPackage : other.package? = some name) :
    leaf.directory = other.directory :=
  together leaf member other otherMember (by rw [isPackage]; rfl)
    (isPackage.trans isOtherPackage.symm)

/-- The order of leaves does not matter for that. -/
theorem Leaf.KeepTogether.of_perm
    {leaves others : List Leaf}
    (together : KeepTogether leaves)
    (perm : leaves.Perm others) :
    KeepTogether others :=
  fun leaf member other otherMember =>
    together leaf (perm.mem_iff.mpr member) other (perm.mem_iff.mpr otherMember)

namespace SourceUnit.Covers

variable
  {files : FileSystem}
  {root : Path}
  {place : List String}
  {sources : List Leaf}
  {unit : SourceUnit}
  {directory : List String}

/-- A unit covers one directory. -/
theorem directory_eq
    {other : List String}
    {otherUnit : SourceUnit}
    (covers : Covers files root place sources unit directory)
    (otherCovers : Covers files root place sources otherUnit other)
    (same : unit.path.same otherUnit.path) :
    directory = other := by
  have components := Path.same_iff.mp same
  rw [covers.components, otherCovers.components, List.append_cancel_left_eq] at components
  exact List.map_injective_iff.mpr (fun _ _ => Component.normal.inj) components

/-- The scopes of a package in a unit are those of the package among all leaves. -/
theorem scopesOf
    (together : Leaf.KeepTogether sources)
    {name : String}
    (declared : name ∈ Leaf.packages (Leaf.ofDirectory directory sources)) :
    PackageFile.scopesOf
        (Leaf.filesAt (Leaf.pathBelow root) (Leaf.ofDirectory directory sources)) name =
      PackageFile.scopesOf (Leaf.filesAt (Leaf.pathBelow root) sources) name := by
  obtain ⟨leaf, member, isPackage⟩ := Leaf.mem_packages.mp declared
  obtain ⟨isSource, here⟩ := Leaf.mem_ofDirectory.mp member
  refine Leaf.scopesOf_filesAt _ ?_
  rw [Leaf.ofDirectory, List.filter_filter]
  refine List.filter_congr fun other otherMember => ?_
  cases samePackage : other.package? == some name with
  | false => rfl
  | true =>
      have sameDirectory :=
        together.directory_eq otherMember isSource (eq_of_beq samePackage) isPackage
      simp [sameDirectory, here]

/-- A package of a unit resolves when it resolves among all leaves. -/
theorem package_resolves_iff
    (together : Leaf.KeepTogether sources)
    {name : String}
    (declared : name ∈ Leaf.packages (Leaf.ofDirectory directory sources)) :
    PackageFile.Resolves
        (Leaf.filesAt (Leaf.pathBelow root) (Leaf.ofDirectory directory sources))
        ⟨unit.path, name⟩ ↔
      PackageFile.Resolves (Leaf.filesAt (Leaf.pathBelow root) sources) ⟨unit.path, name⟩ := by
  simp only [PackageFile.Resolves, scopesOf together declared]

/-- The symbols of a package in a unit are those of the package among all leaves. -/
theorem symbolsOf
    (together : Leaf.KeepTogether sources)
    {name : String}
    (declared : name ∈ Leaf.packages (Leaf.ofDirectory directory sources)) :
    PackageFile.symbolsOf
        (Leaf.filesAt (Leaf.pathBelow root) (Leaf.ofDirectory directory sources))
        ⟨unit.path, name⟩ =
      PackageFile.symbolsOf (Leaf.filesAt (Leaf.pathBelow root) sources) ⟨unit.path, name⟩ := by
  simp only [PackageFile.symbolsOf, scopesOf together declared]

/-- The leaves of a unit are read from their paths. -/
theorem read
    (found : ∀ leaf ∈ sources, leaf.IsFound files root place)
    (leaf : Leaf)
    (member : leaf ∈ Leaf.ofDirectory directory sources) :
    files.read (leaf.pathBelow root) = leaf.content.decoded :=
  (found leaf (Leaf.mem_ofDirectory.mp member).1).read

/-- A unit resolves when its leaves are source files and its packages resolve. -/
theorem resolves_iff
    (covers : Covers files root place sources unit directory)
    (found : ∀ leaf ∈ sources, leaf.IsFound files root place)
    (together : Leaf.KeepTogether sources) :
    (∃ table warnings, resolveUnit files unit = .ok (table, warnings)) ↔
      (∀ leaf ∈ Leaf.ofDirectory directory sources, leaf.package?.isSome) ∧
        ∀ name ∈ Leaf.packages (Leaf.ofDirectory directory sources),
          PackageFile.Resolves (Leaf.filesAt (Leaf.pathBelow root) sources) ⟨unit.path, name⟩ := by
  constructor
  · rintro ⟨table, warnings, resolved⟩
    obtain ⟨sound, resolve, _⟩ := resolveUnit_leaves covers.files (read found) resolved
    exact ⟨sound, fun name declared =>
      (package_resolves_iff together declared).mp (resolve name declared)⟩
  · rintro ⟨sound, resolve⟩
    obtain ⟨⟨table, warnings⟩, resolved⟩ := exists_resolveUnit covers.files (read found) sound
      fun name declared => (package_resolves_iff together declared).mpr (resolve name declared)
    exact ⟨table, warnings, resolved⟩

/-- A unit that resolves has the symbols of its packages. -/
theorem symbols_eq
    (covers : Covers files root place sources unit directory)
    (found : ∀ leaf ∈ sources, leaf.IsFound files root place)
    (together : Leaf.KeepTogether sources)
    {table : SymbolTable}
    {warnings : List Warning}
    (resolved : resolveUnit files unit = .ok (table, warnings)) :
    table.symbols =
      (Leaf.packages (Leaf.ofDirectory directory sources)).flatMap fun name =>
        PackageFile.symbolsOf (Leaf.filesAt (Leaf.pathBelow root) sources) ⟨unit.path, name⟩ := by
  obtain ⟨_, _, areSymbols⟩ := resolveUnit_leaves covers.files (read found) resolved
  rw [areSymbols, List.flatMap_def, List.flatMap_def]
  exact congrArg List.flatten
    (List.map_congr_left fun _ declared => symbolsOf together declared)

end SourceUnit.Covers

namespace Query

/-- A unit that resolves produces its named symbols. -/
theorem exists_produced_iff
    {files : FileSystem}
    {unit : SourceUnit} :
    (∃ symbols, (resolving files).outcome unit = .produced symbols) ↔
      ∃ table warnings, resolveUnit files unit = .ok (table, warnings) := by
  cases resolved : resolveUnit files unit with
  | error cause => simp [Frontend.outcome, resolving, resolved, unitOutcome]
  | ok found =>
      obtain ⟨table, warnings⟩ := found
      simp [Frontend.outcome, resolving, resolved, unitOutcome]

/-- The named symbols of the packages, one package after the other. -/
def packageSymbols
    (config : Config)
    (sources : List Leaf)
    (packages : List PackageId) :
    Universe :=
  (packages.flatMap
    (PackageFile.symbolsOf
      (Leaf.filesAt (Leaf.pathBelow config.root) sources))).filter Symbol.isNamed

/-- What a query finds on its walk, told by the accepted leaves and the packages they declare. -/
structure Surveys
    (files : FileSystem)
    (config : Config)
    (sources : List Leaf)
    (units : List SourceUnit)
    (packages : List PackageId) :
    Prop where
  walk : ∃ warnings, walked files config = .ok (units, warnings)
  outside : ∀ unit ∈ units, unit.importPath = none
  distinct : (packages.map PackageId.name).Nodup
  declared : ∀ name, name ∈ packages.map PackageId.name ↔ name ∈ Leaf.packages sources
  resolves :
    (∀ unit ∈ units, ∃ symbols, (resolving files).outcome unit = .produced symbols) ↔
      (∀ leaf ∈ sources, leaf.package?.isSome) ∧
        ∀ package ∈ packages,
          PackageFile.Resolves (Leaf.filesAt (Leaf.pathBelow config.root) sources) package
  named :
    (∀ unit ∈ units, ∃ symbols, (resolving files).outcome unit = .produced symbols) →
      units.flatMap (resolving files).namedSymbols =
        packageSymbols config sources packages
  places :
    ∀ unit ∈ units, ∀ file ∈ unit.files, ∃ leaf ∈ sources, file = leaf.pathBelow config.root

namespace Surveys

variable
  {files : FileSystem}
  {config : Config}
  {sources : List Leaf}
  {units : List SourceUnit}
  {packages : List PackageId}

/-- A query succeeds when all leaves are source files and all packages resolve. -/
theorem isOk_iff
    (survey : Surveys files config sources units packages)
    {answer : Except QueryError (List Match)}
    (answers : Answers files config answer) :
    answer.isOk ↔
      (∀ leaf ∈ sources, leaf.package?.isSome) ∧
        ∀ package ∈ packages,
          PackageFile.Resolves (Leaf.filesAt (Leaf.pathBelow config.root) sources) package := by
  obtain ⟨warnings, walk⟩ := survey.walk
  exact (answers.isOk_iff walk).trans survey.resolves

/-- A query that succeeds finds what there is to find among the symbols of the packages. -/
theorem found_paired
    (survey : Surveys files config sources units packages)
    {found : List Match}
    (answers : Answers files config (.ok found)) :
    Paired Report.ShowsSame found
      (Matching.find config.concreteOnly (packageSymbols config sources packages)
        config.interface).1 := by
  obtain ⟨warnings, walk⟩ := survey.walk
  have produced := (answers.isOk_iff walk).mp rfl
  obtain ⟨verdict, ends, isAnswer⟩ := answers.exists_verdict walk
  obtain ⟨symbols, gathered, rfl⟩ := answerOf_eq_ok_iff.mp isAnswer.symm
  have agree :=
    agree_namedSymbols (pairwise_of_walked walk) ((gathered_of_mayEnd ends).2 symbols gathered)
  rw [survey.named produced] at agree
  rw [matchesIn, ImportIndex.localize_of_outside survey.outside]
  exact Matching.find_paired agree config.concreteOnly config.interface

/-- The symbols of a query that succeeds are declared in accepted leaves. -/
theorem declaration_mem
    (survey : Surveys files config sources units packages)
    (produced : ∀ unit ∈ units, ∃ symbols, (resolving files).outcome unit = .produced symbols)
    {symbol : Symbol}
    (member : symbol ∈ packageSymbols config sources packages) :
    ∃ leaf ∈ sources, symbol.declaration.file = leaf.pathBelow config.root := by
  rw [← survey.named produced] at member
  obtain ⟨unit, isUnit, named⟩ := List.mem_flatMap.mp member
  exact survey.places unit isUnit _ (comesFrom_of_mem_namedSymbols named).inUnit

end Surveys

/-! ## The units of a scanned tree -/

/-- The packages that are declared in the directories of units. -/
def packagesOf
    (sources : List Leaf)
    (directory : SourceUnit → List String)
    (units : List SourceUnit) :
    List PackageId :=
  units.flatMap fun unit =>
    (Leaf.packages (Leaf.ofDirectory (directory unit) sources)).map fun name => ⟨unit.path, name⟩

/--
Units that cover the directories of leaves, where each leaf is in the directory of a unit and no
package is declared in two directories.
-/
structure Tiles
    (files : FileSystem)
    (root : Path)
    (place : List String)
    (sources : List Leaf)
    (directory : SourceUnit → List String)
    (units : List SourceUnit) :
    Prop where
  found : ∀ leaf ∈ sources, leaf.IsFound files root place
  together : Leaf.KeepTogether sources
  apart : units.Pairwise SourceUnit.Apart
  covers : ∀ unit ∈ units, unit.Covers files root place sources (directory unit)
  home : ∀ leaf ∈ sources, ∃ unit ∈ units, leaf ∈ Leaf.ofDirectory (directory unit) sources

namespace Tiles

variable
  {files : FileSystem}
  {root : Path}
  {place : List String}
  {sources : List Leaf}
  {directory : SourceUnit → List String}
  {units : List SourceUnit}

/-- The names of the packages are those that the directories of the units declare. -/
theorem names_packagesOf :
    (packagesOf sources directory units).map PackageId.name =
      units.flatMap fun unit => Leaf.packages (Leaf.ofDirectory (directory unit) sources) := by
  simp [packagesOf, List.map_flatMap, Function.comp_def]

/-- No name of a package is used in two units. -/
theorem nodup_names
    (tiles : Tiles files root place sources directory units) :
    ((packagesOf sources directory units).map PackageId.name).Nodup := by
  rw [names_packagesOf, List.nodup_flatMap]
  refine ⟨fun unit _ => Leaf.nodup_packages _, ?_⟩
  refine tiles.apart.imp_of_mem fun {left right} isLeft isRight apart => ?_
  intro name inLeft inRight
  obtain ⟨leaf, member, isPackage⟩ := Leaf.mem_packages.mp inLeft
  obtain ⟨other, otherMember, isOtherPackage⟩ := Leaf.mem_packages.mp inRight
  obtain ⟨isSource, here⟩ := Leaf.mem_ofDirectory.mp member
  obtain ⟨isOtherSource, there⟩ := Leaf.mem_ofDirectory.mp otherMember
  have same := tiles.together.directory_eq isSource isOtherSource isPackage isOtherPackage
  refine apart.path (Path.same_iff.mpr ?_)
  rw [(tiles.covers left isLeft).components, (tiles.covers right isRight).components, ← here,
    ← there, same]

/-- The packages of the units are those that the leaves declare. -/
theorem mem_names_iff
    (tiles : Tiles files root place sources directory units)
    {name : String} :
    name ∈ (packagesOf sources directory units).map PackageId.name ↔
      name ∈ Leaf.packages sources := by
  rw [names_packagesOf, List.mem_flatMap]
  constructor
  · rintro ⟨unit, _, declared⟩
    obtain ⟨leaf, member, isPackage⟩ := Leaf.mem_packages.mp declared
    exact Leaf.mem_packages.mpr ⟨leaf, (Leaf.mem_ofDirectory.mp member).1, isPackage⟩
  · intro declared
    obtain ⟨leaf, isSource, isPackage⟩ := Leaf.mem_packages.mp declared
    obtain ⟨unit, member, isInside⟩ := tiles.home leaf isSource
    exact ⟨unit, member, Leaf.mem_packages.mpr ⟨leaf, isInside, isPackage⟩⟩

/-- All units resolve when all leaves are source files and all packages resolve. -/
theorem resolve_iff
    (tiles : Tiles files root place sources directory units) :
    (∀ unit ∈ units, ∃ table warnings, resolveUnit files unit = .ok (table, warnings)) ↔
      (∀ leaf ∈ sources, leaf.package?.isSome) ∧
        ∀ package ∈ packagesOf sources directory units,
          PackageFile.Resolves (Leaf.filesAt (Leaf.pathBelow root) sources) package := by
  have resolves (unit : SourceUnit) (member : unit ∈ units) :=
    (tiles.covers unit member).resolves_iff tiles.found tiles.together
  constructor
  · intro resolved
    constructor
    · intro leaf isSource
      obtain ⟨unit, member, isInside⟩ := tiles.home leaf isSource
      exact ((resolves unit member).mp (resolved unit member)).1 leaf isInside
    · intro package listed
      obtain ⟨unit, member, ofUnit⟩ := List.mem_flatMap.mp listed
      obtain ⟨name, declared, rfl⟩ := List.mem_map.mp ofUnit
      exact ((resolves unit member).mp (resolved unit member)).2 name declared
  · rintro ⟨sound, resolve⟩ unit member
    refine (resolves unit member).mpr ⟨fun leaf isInside => ?_, fun name declared => ?_⟩
    · exact sound leaf (Leaf.mem_ofDirectory.mp isInside).1
    · exact resolve ⟨unit.path, name⟩
        (List.mem_flatMap.mpr ⟨unit, member, List.mem_map_of_mem declared⟩)

/-- The named symbols of the units are those of the packages. -/
theorem namedSymbols_eq
    {config : Config}
    (tiles : Tiles files config.root place sources directory units)
    (resolved :
      ∀ unit ∈ units, ∃ table warnings, resolveUnit files unit = .ok (table, warnings)) :
    units.flatMap (resolving files).namedSymbols =
      packageSymbols config sources (packagesOf sources directory units) := by
  rw [packageSymbols, packagesOf, List.flatMap_assoc, List.filter_flatMap, List.flatMap_def,
    List.flatMap_def]
  refine congrArg List.flatten (List.map_congr_left fun unit member => ?_)
  obtain ⟨table, warnings, resolvedUnit⟩ := resolved unit member
  have areSymbols :=
    (tiles.covers unit member).symbols_eq tiles.found tiles.together resolvedUnit
  simp only [Frontend.namedSymbols, resolving, resolvedUnit, areSymbols, List.flatMap_map]

/-- The files of the units are leaves. -/
theorem exists_leaf
    (tiles : Tiles files root place sources directory units)
    {unit : SourceUnit}
    (member : unit ∈ units)
    {file : Path}
    (inFiles : file ∈ unit.files) :
    ∃ leaf ∈ sources, file = leaf.pathBelow root := by
  rw [(tiles.covers unit member).files] at inFiles
  obtain ⟨leaf, isInside, rfl⟩ := List.mem_map.mp inFiles
  exact ⟨leaf, List.mem_of_mem_filter isInside, rfl⟩

/-- A query that finds the units surveys their packages. -/
theorem surveys
    {config : Config}
    (tiles : Tiles files config.root place sources directory units)
    {warnings : List Warning}
    (walk : walked files config = .ok (units, warnings)) :
    Surveys files config sources units (packagesOf sources directory units) where
  walk := ⟨warnings, walk⟩
  outside := fun unit member => (tiles.covers unit member).outside
  distinct := tiles.nodup_names
  declared := fun _ => tiles.mem_names_iff
  resolves := by simpa only [exists_produced_iff] using tiles.resolve_iff
  named := by simpa only [exists_produced_iff] using tiles.namedSymbols_eq
  places := fun _ member _ inFiles => tiles.exists_leaf member inFiles

end Tiles

end Query

/-- A query on a scanned tree surveys the packages of its leaves. -/
theorem IsScanned.exists_surveys
    {files : FileSystem}
    {config : Config}
    {place : List String}
    {entries : List (String × Entry)}
    (scanned : IsScanned files config.root place entries)
    (distinct : ((Entry.leavesOf [] entries).map Leaf.name).Nodup)
    (reaches : config.walk.recursive ∨ ∀ entry ∈ entries, ∃ content, entry.2 = .file content)
    (together : Leaf.KeepTogether (Entry.sources config.walk.includeTests entries)) :
    ∃ units packages,
      Query.Surveys files config (Entry.sources config.walk.includeTests entries) units
        packages := by
  obtain ⟨units, warnings, listed, covered, covering⟩ := scanned.exists_units distinct reaches
  have walk : Query.walked files config = .ok (units, warnings) := by
    simp only [Query.walked, listed]
  choose! directory covers using covered
  have tiles :
      Query.Tiles files config.root place (Entry.sources config.walk.includeTests entries)
        directory units :=
    { found := fun _ member => scanned.isFound_source member
      together
      apart := Query.pairwise_of_walked walk
      covers
      home := fun leaf isSource => by
        obtain ⟨unit, member, coversLeaf⟩ := covering leaf isSource
        have same := (covers unit member).directory_eq coversLeaf (Path.same_iff.mpr rfl)
        exact ⟨unit, member, Leaf.mem_ofDirectory.mpr ⟨isSource, same.symm⟩⟩ }
  exact ⟨units, Query.packagesOf _ directory units, tiles.surveys walk⟩

end Implementers
